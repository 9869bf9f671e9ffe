import PandaPay.PortableBackup.Sessions

/-!
# Bank references

How `transaction_dedup.js` finds the reference of a bank in a row. A regular expression is a matcher that lists
what may be left behind a match, in the order in which it would backtrack.

## Main definitions

* `Matcher`: the rests behind the matches at the beginning of a text
* `referenceInText`, `referenceOf`: the reference that a row states
-/

namespace PandaPay.Transactions

open PortableBackup (isJsWhiteSpace)

/-! ### Matchers -/

/-- What may be left behind a match, the preferred rest first. -/
abbrev Matcher := JsString → List JsString

namespace Matcher

/-- `mn`. -/
def seq (m n : Matcher) : Matcher := fun s => (m s).flatMap n

/-- `(?:m|n)`. -/
def alt (m n : Matcher) : Matcher := fun s => m s ++ n s

/-- `m?`. -/
def optional (m : Matcher) : Matcher := fun s => m s ++ [s]

/-- A character of a class. -/
def oneOf (p : CodeUnit → Bool) : Matcher
  | [] => []
  | c :: s => if p c then [s] else []

/-- `[…]{0,n}`, as many characters as there are. -/
def upTo (p : CodeUnit → Bool) : ℕ → Matcher
  | 0, s => [s]
  | _ + 1, [] => [[]]
  | n + 1, c :: s => if p c then upTo p n s ++ [c :: s] else [c :: s]

/-- `[…]*`. -/
def many (p : CodeUnit → Bool) : Matcher := fun s => upTo p s.length s

/-- `[…]{n}`. -/
def exactly (p : CodeUnit → Bool) : ℕ → Matcher
  | 0 => fun s => [s]
  | n + 1 => seq (oneOf p) (exactly p n)

end Matcher

/-- A letter in upper case; other characters than the letters of the alphabet have no case here. -/
def upperAscii (c : CodeUnit) : CodeUnit := if 97 ≤ c.val ∧ c.val ≤ 122 then c - 32 else c

/-- A word in any case, given in upper case. -/
def word (w : JsString) : Matcher := fun s =>
  if (s.take w.length).map upperAscii = w then [s.drop w.length] else []

/-- `\s*`. -/
def spaces : Matcher := .many isJsWhiteSpace

/-- `[A-Z0-9]`, in any case. -/
def isAlphanumeric (c : CodeUnit) : Bool :=
  (48 ≤ c.val ∧ c.val ≤ 57) ∨ (65 ≤ (upperAscii c).val ∧ (upperAscii c).val ≤ 90)

/-- `[A-Z0-9-]`, in any case. -/
def isReferenceCharacter (c : CodeUnit) : Bool := isAlphanumeric c || c = 45

/-- `\w`. -/
def isWordCharacter (c : CodeUnit) : Bool := isAlphanumeric c || c = 95

/-! ### References -/

/-- `(?:UTR|RRN|UPI\s*REF(?:ERENCE)?|(?:TXN|TRANSACTION)\s*(?:ID|REF)|REF(?:ERENCE)?(?:\s*(?:NO|NUMBER|ID))?)`. -/
def referenceLabel : Matcher :=
  .alt (word (js "UTR"))
    (.alt (word (js "RRN"))
      (.alt (.seq (word (js "UPI")) (.seq spaces (.seq (word (js "REF")) (.optional (word (js "ERENCE"))))))
        (.alt
          (.seq (.alt (word (js "TXN")) (word (js "TRANSACTION")))
            (.seq spaces (.alt (word (js "ID")) (word (js "REF")))))
          (.seq (word (js "REF"))
            (.seq (.optional (word (js "ERENCE")))
              (.optional (.seq spaces
                (.alt (word (js "NO")) (.alt (word (js "NUMBER")) (word (js "ID")))))))))))

/-- `\s*[:#.-]?\s*`. -/
def referenceSeparator : Matcher :=
  .seq spaces (.seq (.optional (.oneOf fun c => c ∈ ([58, 35, 46, 45] : JsString))) spaces)

/-- `[A-Z0-9][A-Z0-9-]{5,39}`. -/
def referenceBody : Matcher :=
  .seq (.oneOf isAlphanumeric) (.seq (.exactly isReferenceCharacter 5) (.upTo isReferenceCharacter 34))

/-- `\b` between a text and the rest behind it. -/
def atBoundary (before rest : JsString) : Bool :=
  (before.getLast?.any isWordCharacter) != (rest.head?.any isWordCharacter)

/-- The group of a match that begins where the text does. -/
def referenceHere (text : JsString) : Option JsString :=
  (Matcher.seq referenceLabel referenceSeparator text).findSome? fun start =>
    ((referenceBody start).map fun rest => (start.take (start.length - rest.length), rest)).findSome? fun found =>
      if atBoundary found.1 found.2 then some found.1 else none

/-- The group of the first match in a text. -/
def referenceInText : JsString → Option JsString
  | [] => none
  | c :: text => (referenceHere (c :: text)).or (referenceInText text)

/-- A reference in upper case, without hyphens. -/
def plainReference (reference : JsString) : JsString := (reference.map upperAscii).filter (· ≠ 45)

/-- `referenceOf(row)`, of the two fields that it reads. -/
def referenceOf (bankReference merchantName : Option JsString) : Option JsString :=
  match bankReference.filter fun explicit =>
      6 ≤ explicit.length ∧ explicit.length ≤ 40 ∧ explicit.all isReferenceCharacter with
  | some explicit => some (plainReference explicit)
  | none => (referenceInText (merchantName.getD [])).map plainReference

example : referenceOf none (some (js "Paid via UPI Ref No: 4123-4567-8901 ok")) = some (js "412345678901") := by
  decide +kernel

end PandaPay.Transactions
