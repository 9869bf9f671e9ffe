import PandaPay.Json.Numeral
import PandaPay.PortableBackup.Sessions

/-!
# Amounts in rupees

How the rules read an amount (`parseAmountIndian` of `engine/transforms.dart`), and how a receipt question
prints one (`formatReceiptRupees` of `linker/receipt_policy.dart`). Amounts are in paise.

## Main definitions

* `parseAmountIndian`, `formatReceiptRupees`: the functions of the source
* `Written`: a text writes an amount, with what may stand around it

## Main results

* `parseAmountIndian_eq_some_iff`: a text that writes an amount is read as exactly that amount, or refused
* `rupee_round_trip`: printed amounts are read back, and nothing is rounded
-/

namespace PandaPay.SmsV2

open PortableBackup (isJsWhiteSpace)

/-! ### Reading -/

/-- A letter without its case. -/
def foldCase (c : CodeUnit) : CodeUnit := if 65 ≤ c.val ∧ c.val ≤ 90 then c + 32 else c

/-- The rest of a text that begins with a word, in any case. -/
def dropWord (word s : JsString) : Option JsString :=
  if (s.take word.length).map foldCase = word then some (s.drop word.length) else none

/-- `rs\.?|inr|₹`: the rest behind a currency mark. -/
def dropMark (s : JsString) : Option JsString :=
  match dropWord (js "rs") s with
  | some rest => some (if rest.head? = some 46 then rest.tail else rest)
  | none => (dropWord (js "inr") s).or (dropWord [8377] s)

/-- `s.replaceFirst(_amountPrefix, '')`. -/
def dropPrefix (s : JsString) : JsString :=
  match dropMark (s.dropWhile isJsWhiteSpace) with
  | some rest => rest.dropWhile isJsWhiteSpace
  | none => s

/-- The rest behind an ending, `only` or a slash and a dash. -/
def dropEnding (s : JsString) : Option JsString := (dropWord (js "/-") s).or (dropWord (js "only") s)

/-- `_amountSuffix` matches a text from its beginning. -/
def isSuffix (s : JsString) : Bool :=
  (dropEnding (s.dropWhile isJsWhiteSpace)).any fun rest => rest.all isJsWhiteSpace

/-- `s.replaceFirst(_amountSuffix, '')`: what stands before the first match. -/
def dropSuffix : JsString → JsString
  | [] => []
  | c :: s => if isSuffix (c :: s) then [] else c :: dropSuffix s

/-- An amount as it is written: digits and commas, and the digits of a fraction. -/
structure WrittenAmount where
  whole : JsString
  fraction : JsString
  deriving DecidableEq

/-- What stands in `[\d,]`. -/
def isGrouped (c : CodeUnit) : Bool := isDigit c || c.val = 44

/-- `_amountBody`, `/^\d[\d,]*(?:\.\d+)?$/`. -/
def amountBody (s : JsString) : Option WrittenAmount :=
  if s.head?.any isDigit then
    match s.dropWhile isGrouped with
    | [] => some ⟨s.takeWhile isGrouped, []⟩
    | point :: fraction =>
      if point.val = 46 ∧ fraction ≠ [] ∧ fraction.all isDigit then
        some ⟨s.takeWhile isGrouped, fraction⟩
      else none
  else none

/-- The digits of the whole part, without commas. -/
def WrittenAmount.digits (a : WrittenAmount) : JsString := a.whole.filter (·.val ≠ 44)

/-- The paise of a fraction. A fraction of a paisa has none. -/
def fractionPaise (fraction : JsString) : Option ℕ :=
  if 2 < fraction.length ∧ (fraction.drop 2).any (·.val ≠ 48) then none
  else
    let fraction := fraction.take 2
    some (unsignedValue (fraction ++ List.replicate (2 - fraction.length) 48))

/-- The largest amount, the largest whole number that a double counts. -/
def maxPaise : ℕ := 9007199254740991

/-- The text without what may stand around an amount. -/
def bareAmount (text : JsString) : JsString :=
  let s := trim (dropSuffix (dropPrefix (trim text)))
  if s.getLast? = some 46 then s.dropLast else s

/-- `parseAmountIndian(text)`. -/
def parseAmountIndian (text : JsString) : Option ℕ :=
  match amountBody (bareAmount text) with
  | none => none
  | some a =>
    match fractionPaise a.fraction with
    | none => none
    | some fraction =>
      let paise := unsignedValue a.digits * 100 + fraction
      if maxPaise < paise then none else some paise

/-! ### Printing -/

/-- `replaceAllMapped(RegExp(r'(\d)(?=(\d\d)+$)'), (m) => '${m[1]},')` of digits. -/
def groupPairs : JsString → JsString
  | [] => []
  | c :: s => if 0 < s.length ∧ s.length % 2 = 0 then c :: 44 :: groupPairs s else c :: groupPairs s

/-- The digits with a comma before the last three, and before each two before them. -/
def grouped (digits : JsString) : JsString :=
  if digits.length ≤ 3 then digits
  else groupPairs (digits.take (digits.length - 3)) ++ 44 :: digits.drop (digits.length - 3)

/-- `formatReceiptRupees(minor)`. -/
def formatReceiptRupees (minor : ℕ) : JsString :=
  let paise := decimal (minor % 100)
  8377 :: (grouped (decimal (minor / 100)) ++
    if minor % 100 = 0 then [] else 46 :: (List.replicate (2 - paise.length) 48 ++ paise))

/-! ### What a text writes -/

namespace WrittenAmount

/-- The text of an amount. -/
def text (a : WrittenAmount) : JsString := a.whole ++ if a.fraction = [] then [] else 46 :: a.fraction

/-- An amount begins with a digit and has digits after its point. -/
structure Valid (a : WrittenAmount) : Prop where
  head : a.whole.head?.any isDigit = true
  whole : ∀ c ∈ a.whole, isGrouped c = true
  fraction : ∀ c ∈ a.fraction, isDigit c = true

/-- The decimal number of an amount. -/
def number (a : WrittenAmount) : ℚ := unsignedValue a.digits + unsignedValue a.fraction / 10 ^ a.fraction.length

end WrittenAmount

/-- The currency marks that may stand before an amount, in any case. -/
def marks : List JsString := [js "rs", js "rs.", js "inr", [8377]]

/-- The endings that may stand behind an amount, in any case. -/
def endings : List JsString := [js "/-", js "only"]

/-- A word, or nothing. -/
def OneOf (words : List JsString) (s : JsString) : Prop := s = [] ∨ s.map foldCase ∈ words

def IsSpace (s : JsString) : Prop := ∀ c ∈ s, isWhiteSpace c = true

/-- A text writes an amount: a currency mark may stand before it, and a final dot and an ending behind it,
with white space between them. -/
def Written (text : JsString) (a : WrittenAmount) : Prop :=
  a.Valid ∧ ∃ before mark gap dot gap' ending after, IsSpace before ∧ OneOf marks mark ∧ IsSpace gap ∧
    (dot = [] ∨ dot = [46]) ∧ IsSpace gap' ∧ OneOf endings ending ∧ IsSpace after ∧
    text = before ++ mark ++ gap ++ a.text ++ dot ++ gap' ++ ending ++ after

/-! ### White space -/

theorem IsSpace.nil : IsSpace [] := fun _ hc => absurd hc List.not_mem_nil

theorem IsSpace.append {s t : JsString} (hs : IsSpace s) (ht : IsSpace t) : IsSpace (s ++ t) := fun c hc =>
  (List.mem_append.mp hc).elim (hs c) (ht c)

theorem isWhiteSpace_of_js {c : CodeUnit} (h : isJsWhiteSpace c = true) : isWhiteSpace c = true :=
  (Bool.and_eq_true_iff.mp h).1

theorem isSpace_takeWhile (s : JsString) : IsSpace (s.takeWhile isJsWhiteSpace) := fun _ hc =>
  isWhiteSpace_of_js (List.mem_takeWhile_imp hc)

/-- White space around a text is trimmed. -/
theorem trim_append {l r : JsString} (hl : IsSpace l) (s : JsString) (hr : IsSpace r) :
    trim (l ++ s ++ r) = trim s := by
  have hend : ∀ t : JsString, ((t ++ r).reverse.dropWhile isWhiteSpace) = t.reverse.dropWhile isWhiteSpace := by
    intro t
    rw [List.reverse_append, List.dropWhile_append_of_pos fun c hc => hr c (List.mem_reverse.mp hc)]
  rw [trim, List.append_assoc, List.dropWhile_append_of_pos hl, List.dropWhile_append]
  split
  case isTrue hnil =>
    rw [List.isEmpty_iff] at hnil
    rw [List.dropWhile_eq_nil_iff.mpr hr, trim, hnil]
  case isFalse => rw [hend, trim]

/-- What is trimmed is white space. -/
theorem exists_trim (s : JsString) : ∃ l r, IsSpace l ∧ IsSpace r ∧ s = l ++ trim s ++ r := by
  refine ⟨s.takeWhile isWhiteSpace, ((s.dropWhile isWhiteSpace).reverse.takeWhile isWhiteSpace).reverse,
    fun c hc => List.mem_takeWhile_imp hc, fun c hc => List.mem_takeWhile_imp (List.mem_reverse.mp hc), ?_⟩
  rw [List.append_assoc, trim, ← List.reverse_append, List.takeWhile_append_dropWhile, List.reverse_reverse,
    List.takeWhile_append_dropWhile]

/-- A text that begins and ends with something else is trimmed. -/
theorem trim_eq_self {s : JsString} (hfirst : ∀ c ∈ s.head?, isWhiteSpace c = false)
    (hlast : ∀ c ∈ s.getLast?, isWhiteSpace c = false) : trim s = s := by
  have hkeep : ∀ t : JsString, (∀ c ∈ t.head?, isWhiteSpace c = false) → t.dropWhile isWhiteSpace = t := by
    intro t ht
    cases t with
    | nil => rfl
    | cons c t => exact List.dropWhile_cons_of_neg (by simp [ht c rfl])
  rw [trim, hkeep s hfirst, hkeep _ (by rwa [List.head?_reverse]), List.reverse_reverse]

/-! ### What stands around an amount -/

theorem dropWord_eq_some_iff {word s rest : JsString} :
    dropWord word s = some rest ↔ ∃ w, w.map foldCase = word ∧ s = w ++ rest := by
  rw [dropWord]
  constructor
  · intro h
    split_ifs at h with hword
    exact ⟨_, hword, by rw [← Option.some.inj h, List.take_append_drop]⟩
  · rintro ⟨w, rfl, rfl⟩
    rw [List.length_map, List.take_left, List.drop_left, if_pos rfl]

/-- A text that does not begin with a word. -/
theorem dropWord_eq_none {word s : JsString} {c : CodeUnit} (hword : word.head? = some c)
    (hs : ∀ d ∈ s.head?, foldCase d ≠ c) : dropWord word s = none := by
  refine Option.eq_none_iff_forall_ne_some.mpr fun rest h => ?_
  obtain ⟨w, rfl, rfl⟩ := dropWord_eq_some_iff.mp h
  cases w with
  | nil => cases hword
  | cons d w => exact hs d rfl (Option.some.inj hword)

/-- Only small letters are other letters folded. -/
theorem eq_of_foldCase {c : CodeUnit} (h : (foldCase c).val < 97) : foldCase c = c := by
  rw [foldCase] at h ⊢
  split_ifs with hc
  · rw [if_pos hc] at h
    have hval : (c + 32).val = c.val + 32 := by
      rw [Fin.val_add]
      exact Nat.mod_eq_of_lt (show c.val + 32 < 65536 by omega)
    omega
  · rfl

/-- Endings are dropped, and only endings. -/
theorem dropEnding_eq_some_iff {s rest : JsString} :
    dropEnding s = some rest ↔ ∃ e, e.map foldCase ∈ endings ∧ s = e ++ rest := by
  rw [dropEnding]
  constructor
  · intro h
    rcases Option.or_eq_some_iff.mp h with h | ⟨-, h⟩ <;> obtain ⟨e, he, rfl⟩ := dropWord_eq_some_iff.mp h
    · exact ⟨e, by simp [endings, he], rfl⟩
    · exact ⟨e, by simp [endings, he], rfl⟩
  · rintro ⟨e, he, rfl⟩
    rcases List.mem_cons.mp he with hslash | hword
    · rw [dropWord_eq_some_iff.mpr ⟨e, hslash, rfl⟩]
      rfl
    · have hword := List.mem_singleton.mp hword
      have hnone : dropWord (js "/-") (e ++ rest) = none := by
        refine dropWord_eq_none (c := 47) rfl fun d hd => ?_
        cases e with
        | nil => cases hword
        | cons c e =>
          rw [← Option.some.inj hd, (List.cons.inj hword).1]
          decide
      rw [hnone, Option.none_or]
      exact dropWord_eq_some_iff.mpr ⟨e, hword, rfl⟩

/-- What may stand before an ending: neither a slash nor an `o`. -/
def IsPlain (c : CodeUnit) : Prop := foldCase c ≠ 47 ∧ foldCase c ≠ 111

theorem dropEnding_eq_none {s : JsString} (h : ∀ c ∈ s.head?, IsPlain c) : dropEnding s = none := by
  rw [dropEnding, dropWord_eq_none (c := 47) rfl fun d hd => (h d hd).1,
    dropWord_eq_none (c := 111) rfl fun d hd => (h d hd).2]
  rfl

/-- A letter is not white space, whatever its case. -/
theorem isWhiteSpace_foldCase (c : CodeUnit) : isWhiteSpace (foldCase c) = isWhiteSpace c := by
  rw [foldCase]
  split_ifs with hupper
  · have hadd : (c + 32).val = c.val + 32 := by
      rw [Fin.val_add]
      exact Nat.mod_eq_of_lt (show c.val + 32 < 65536 by omega)
    have hnone : ∀ d : CodeUnit, 65 ≤ d.val → d.val ≤ 122 → isWhiteSpace d = false := by
      intro d hlow hhigh
      simp only [isWhiteSpace, decide_eq_false_iff_not, List.mem_cons, List.not_mem_nil, or_false]
      omega
    rw [hnone c hupper.1 (by omega), hnone (c + 32) (by omega) (by omega)]
  · rfl

theorem isPlain_of_isWhiteSpace {c : CodeUnit} (h : isWhiteSpace c = true) : IsPlain c := by
  rw [← isWhiteSpace_foldCase] at h
  constructor <;> intro hc <;> rw [hc] at h <;> revert h <;> decide

/-- No white space stands in a word. -/
theorem isWhiteSpace_of_mem_word {words : List JsString}
    (hwords : (words.all fun w => w.all fun c => !isWhiteSpace c) = true)
    {s : JsString} (h : s.map foldCase ∈ words) {c : CodeUnit} (hc : c ∈ s) : isWhiteSpace c = false := by
  have hword := List.all_eq_true.mp hwords _ h
  have hnot := List.all_eq_true.mp hword _ (List.mem_map_of_mem hc)
  rwa [isWhiteSpace_foldCase, Bool.not_eq_true'] at hnot

theorem isWhiteSpace_of_mem_ending {e : JsString} (h : e.map foldCase ∈ endings) {c : CodeUnit} (hc : c ∈ e) :
    isWhiteSpace c = false :=
  isWhiteSpace_of_mem_word (by decide) h hc

theorem isWhiteSpace_of_mem_mark {m : JsString} (h : m.map foldCase ∈ marks) {c : CodeUnit} (hc : c ∈ m) :
    isWhiteSpace c = false :=
  isWhiteSpace_of_mem_word (by decide) h hc

/-- An ending does not begin with white space. -/
theorem head_ending {e : JsString} (h : e.map foldCase ∈ endings) :
    ∃ c t, e = c :: t ∧ isWhiteSpace c = false := by
  cases e with
  | nil => exact absurd h (by decide)
  | cons c t => exact ⟨c, t, rfl, isWhiteSpace_of_mem_ending h List.mem_cons_self⟩

theorem isSuffix_ending {e : JsString} (h : e.map foldCase ∈ endings) : isSuffix e = true := by
  obtain ⟨c, t, rfl, hc⟩ := head_ending h
  have hjs : ¬ isJsWhiteSpace c = true := by simp [isJsWhiteSpace, hc]
  rw [isSuffix, List.dropWhile_cons_of_neg hjs, dropEnding_eq_some_iff.mpr ⟨_, h, (List.append_nil _).symm⟩]
  rfl

/-- Only an ending with white space around it is dropped. -/
theorem exists_of_isSuffix {s : JsString} (h : isSuffix s = true) :
    ∃ gap e after, IsSpace gap ∧ e.map foldCase ∈ endings ∧ IsSpace after ∧ s = gap ++ e ++ after := by
  rw [isSuffix, Option.any_eq_true] at h
  obtain ⟨after, hdrop, hafter⟩ := h
  obtain ⟨e, he, hrest⟩ := dropEnding_eq_some_iff.mp hdrop
  refine ⟨s.takeWhile isJsWhiteSpace, e, after, isSpace_takeWhile s, he,
    fun c hc => isWhiteSpace_of_js (List.all_eq_true.mp hafter c hc), ?_⟩
  rw [List.append_assoc, ← hrest, List.takeWhile_append_dropWhile]

/-- Nothing but white space stands before an ending that is dropped. -/
theorem isSpace_of_isSuffix {s t : JsString} (hplain : ∀ c ∈ s, IsPlain c) (h : isSuffix (s ++ t) = true) :
    IsSpace s := by
  induction s with
  | nil => exact .nil
  | cons c s ih =>
    rw [List.cons_append, isSuffix] at h
    by_cases hc : isJsWhiteSpace c = true
    · rw [List.dropWhile_cons_of_pos hc] at h
      have hs := ih (fun d hd => hplain d (List.mem_cons_of_mem c hd)) (by rwa [isSuffix])
      exact fun d hd => (List.mem_cons.mp hd).elim (fun hd => hd ▸ isWhiteSpace_of_js hc) (hs d)
    · rw [List.dropWhile_cons_of_neg hc, dropEnding_eq_none fun d hd => by
        rw [← Option.some.inj hd]
        exact hplain c List.mem_cons_self] at h
      cases h

/-- What stands before an ending is kept, but for white space. -/
theorem dropSuffix_append {s e : JsString} (hs : ∀ c ∈ s, IsPlain c) (he : e = [] ∨ e.map foldCase ∈ endings) :
    ∃ w, IsSpace w ∧ dropSuffix (s ++ e) ++ w = s := by
  induction s with
  | nil =>
    refine ⟨[], .nil, ?_⟩
    rcases he with rfl | he
    · rfl
    · obtain ⟨c, t, rfl, -⟩ := head_ending he
      rw [List.nil_append, dropSuffix, if_pos (isSuffix_ending he), List.append_nil]
  | cons c s ih =>
    rw [List.cons_append, dropSuffix]
    split_ifs with hsuffix
    · exact ⟨c :: s, isSpace_of_isSuffix hs hsuffix, rfl⟩
    · obtain ⟨w, hw, hkeep⟩ := ih fun d hd => hs d (List.mem_cons_of_mem c hd)
      exact ⟨w, hw, by rw [List.cons_append, hkeep]⟩

/-- What is dropped at the end is an ending with white space around it. -/
theorem exists_dropSuffix (s : JsString) : ∃ gap e after, IsSpace gap ∧ OneOf endings e ∧ IsSpace after ∧
    s = dropSuffix s ++ gap ++ e ++ after := by
  induction s with
  | nil => exact ⟨[], [], [], .nil, .inl rfl, .nil, rfl⟩
  | cons c s ih =>
    rw [dropSuffix]
    split_ifs with hsuffix
    · obtain ⟨gap, e, after, hgap, he, hafter, hs⟩ := exists_of_isSuffix hsuffix
      exact ⟨gap, e, after, hgap, .inr he, hafter, hs⟩
    · obtain ⟨gap, e, after, hgap, he, hafter, hs⟩ := ih
      exact ⟨gap, e, after, hgap, he, hafter, congrArg (c :: ·) hs⟩

/-- Only currency marks are dropped. -/
theorem exists_of_dropMark {s rest : JsString} (h : dropMark s = some rest) :
    ∃ m, m.map foldCase ∈ marks ∧ s = m ++ rest := by
  rw [dropMark] at h
  cases hrs : dropWord (js "rs") s with
  | some t =>
    rw [hrs] at h
    have hkept : (if t.head? = some 46 then t.tail else t) = rest := Option.some.inj h
    obtain ⟨m, hm, rfl⟩ := dropWord_eq_some_iff.mp hrs
    split_ifs at hkept with hpoint
    · obtain ⟨u, rfl⟩ : ∃ u, t = 46 :: u := by
        cases t with
        | nil => cases hpoint
        | cons c u => exact ⟨u, by rw [Option.some.inj hpoint]⟩
      refine ⟨m ++ [46], ?_, by rw [← hkept, List.append_assoc, List.singleton_append, List.tail_cons]⟩
      rw [List.map_append, hm]
      decide
    · exact ⟨m, by rw [hm]; decide, by rw [hkept]⟩
  | none =>
    rw [hrs] at h
    rcases Option.or_eq_some_iff.mp h with h | ⟨-, h⟩ <;> obtain ⟨m, hm, rfl⟩ := dropWord_eq_some_iff.mp h
    · exact ⟨m, by rw [hm]; decide, rfl⟩
    · exact ⟨m, by rw [hm]; decide, rfl⟩

/-- A currency mark is dropped. -/
theorem dropMark_append {m rest : JsString} (hm : m.map foldCase ∈ marks) (hrest : rest.head? ≠ some 46) :
    dropMark (m ++ rest) = some rest := by
  have hnone : ∀ c : CodeUnit, ∀ t, m.map foldCase = c :: t → c ≠ 114 → dropWord (js "rs") (m ++ rest) = none := by
    intro c t ht hc
    refine dropWord_eq_none (c := 114) rfl fun d hd => ?_
    cases m with
    | nil => cases ht
    | cons b m => rwa [← Option.some.inj hd, (List.cons.inj ht).1]
  simp only [marks, List.mem_cons, List.not_mem_nil, or_false] at hm
  rcases hm with hm | hm | hm | hm
  · rw [dropMark, dropWord_eq_some_iff.mpr ⟨m, hm, rfl⟩]
    simp only [if_neg hrest]
  · obtain ⟨w, p, rfl, hw, hp⟩ := List.map_eq_append_iff.mp (hm.trans (show js "rs." = js "rs" ++ [46] by decide))
    obtain ⟨c, rfl, hc⟩ := List.map_eq_singleton_iff.mp hp
    have hpoint : c = 46 := (eq_of_foldCase (by rw [hc]; decide)).symm.trans hc
    rw [dropMark, List.append_assoc, dropWord_eq_some_iff.mpr ⟨w, hw, rfl⟩, hpoint]
    rfl
  · rw [dropMark, hnone _ _ hm (by decide), dropWord_eq_some_iff.mpr ⟨m, hm, rfl⟩]
    rfl
  · have hinr : dropWord (js "inr") (m ++ rest) = none := by
      refine dropWord_eq_none (c := 105) rfl fun d hd => ?_
      cases m with
      | nil => cases hm
      | cons b m =>
        rw [← Option.some.inj hd, (List.cons.inj hm).1]
        decide
    rw [dropMark, hnone _ _ hm (by decide), hinr, dropWord_eq_some_iff.mpr ⟨m, hm, rfl⟩]
    rfl

/-- What is dropped at the beginning is a mark with white space around it. -/
theorem exists_dropPrefix (s : JsString) : ∃ before m gap, IsSpace before ∧ OneOf marks m ∧ IsSpace gap ∧
    s = before ++ m ++ gap ++ dropPrefix s := by
  rw [dropPrefix]
  cases hmark : dropMark (s.dropWhile isJsWhiteSpace) with
  | none => exact ⟨[], [], [], .nil, .inl rfl, .nil, rfl⟩
  | some rest =>
    obtain ⟨m, hm, hrest⟩ := exists_of_dropMark hmark
    refine ⟨s.takeWhile isJsWhiteSpace, m, rest.takeWhile isJsWhiteSpace, isSpace_takeWhile s, .inr hm,
      isSpace_takeWhile rest, ?_⟩
    rw [List.append_assoc, List.append_assoc, List.takeWhile_append_dropWhile, ← hrest,
      List.takeWhile_append_dropWhile]

/-! ### The amount itself -/

theorem isGrouped_of_isDigit {c : CodeUnit} (h : isDigit c = true) : isGrouped c = true := by
  rw [isGrouped, h, Bool.true_or]

namespace WrittenAmount

variable {a : WrittenAmount}

/-- What stands in the text of an amount: digits, commas and points. -/
theorem Valid.mem_text (h : a.Valid) {c : CodeUnit} (hc : c ∈ a.text) : isGrouped c = true ∨ c = 46 := by
  rcases List.mem_append.mp hc with hc | hc
  · exact .inl (h.whole c hc)
  · split_ifs at hc
    · exact absurd hc List.not_mem_nil
    · exact (List.mem_cons.mp hc).symm.imp (fun hc => isGrouped_of_isDigit (h.fraction c hc)) id

theorem Valid.val_of_mem_text (h : a.Valid) {c : CodeUnit} (hc : c ∈ a.text) : 44 ≤ c.val ∧ c.val ≤ 57 ∧ c.val ≠ 47 := by
  rcases h.mem_text hc with hc | rfl
  · simp only [isGrouped, isDigit, Bool.or_eq_true, decide_eq_true_eq] at hc
    omega
  · decide

theorem Valid.exists_head (h : a.Valid) : ∃ c t, a.text = c :: t ∧ isDigit c = true := by
  have hhead := h.head
  rw [Option.any_eq_true] at hhead
  obtain ⟨c, hc, hdigit⟩ := hhead
  obtain ⟨t, ht⟩ := List.head?_eq_some_iff.mp hc
  exact ⟨c, t ++ if a.fraction = [] then [] else 46 :: a.fraction, by rw [text, ht, List.cons_append], hdigit⟩

end WrittenAmount

/-- The texts of `_amountBody` are those of amounts. -/
theorem amountBody_eq_some_iff {s : JsString} {a : WrittenAmount} :
    amountBody s = some a ↔ a.Valid ∧ s = a.text := by
  constructor
  · intro h
    rw [amountBody] at h
    split_ifs at h with hhead
    have hsplit := List.takeWhile_append_dropWhile (p := isGrouped) (l := s)
    have hfirst : (s.takeWhile isGrouped).head?.any isDigit = true := by
      cases s with
      | nil => cases hhead
      | cons c s => rwa [List.takeWhile_cons_of_pos (isGrouped_of_isDigit hhead)]
    cases hrest : s.dropWhile isGrouped with
    | nil =>
      rw [hrest] at h hsplit
      obtain rfl := Option.some.inj h
      exact ⟨⟨hfirst, fun c hc => List.mem_takeWhile_imp hc, fun c hc => absurd hc List.not_mem_nil⟩, hsplit.symm⟩
    | cons point fraction =>
      rw [hrest] at h hsplit
      simp only at h
      split_ifs at h with hfraction
      obtain rfl := Option.some.inj h
      refine ⟨⟨hfirst, fun c hc => List.mem_takeWhile_imp hc, List.all_eq_true.mp hfraction.2.2⟩, ?_⟩
      rw [WrittenAmount.text, if_neg hfraction.2.1, ← show point = 46 from Fin.ext hfraction.1, hsplit]
  · rintro ⟨h, rfl⟩
    obtain ⟨c, t, ht, hc⟩ := h.exists_head
    have hhead : a.text.head?.any isDigit = true := by rw [ht]; exact hc
    have hpoint : ¬ isGrouped 46 = true := by decide
    have htake : ∀ rest : JsString, rest.head? = none ∨ rest.head? = some 46 →
        (a.whole ++ rest).takeWhile isGrouped = a.whole ∧ (a.whole ++ rest).dropWhile isGrouped = rest := by
      intro rest hrest
      rw [List.takeWhile_append_of_pos h.whole, List.dropWhile_append_of_pos h.whole]
      cases rest with
      | nil => exact ⟨List.append_nil _, rfl⟩
      | cons d rest =>
        obtain rfl : d = 46 := hrest.elim (fun h => nomatch h) Option.some.inj
        rw [List.takeWhile_cons_of_neg hpoint, List.dropWhile_cons_of_neg hpoint, List.append_nil]
        exact ⟨rfl, rfl⟩
    rw [amountBody, if_pos hhead, WrittenAmount.text]
    split_ifs with hfraction
    · rw [(htake [] (.inl rfl)).1, (htake [] (.inl rfl)).2]
      show some (WrittenAmount.mk a.whole []) = some a
      rw [← hfraction]
    · rw [(htake _ (.inr rfl)).1, (htake _ (.inr rfl)).2]
      exact if_pos ⟨rfl, hfraction, List.all_eq_true.mpr h.fraction⟩

/-! ### Stripping -/

section Written

variable {a : WrittenAmount} (h : a.Valid) {dot : JsString} (hdot : dot = [] ∨ dot = [46])
include h

/-- The last character of an amount is no point. -/
theorem WrittenAmount.Valid.getLast_text : a.text.getLast? ≠ some 46 := by
  intro hlast
  rw [WrittenAmount.text] at hlast
  split_ifs at hlast with hfraction
  · rw [List.append_nil] at hlast
    exact absurd (h.whole 46 (List.mem_of_getLast? hlast)) (by decide)
  · rw [List.getLast?_append, List.getLast?_cons] at hlast
    have hpoint : 46 ∈ a.fraction := by
      cases hf : a.fraction.getLast? with
      | none => exact absurd (List.getLast?_eq_none_iff.mp hf) hfraction
      | some c =>
        rw [hf] at hlast
        obtain rfl : c = 46 := Option.some.inj hlast
        exact List.mem_of_getLast? hf
    exact absurd (h.fraction 46 hpoint) (by decide)

include hdot

theorem val_of_mem_core {c : CodeUnit} (hc : c ∈ a.text ++ dot) : 44 ≤ c.val ∧ c.val ≤ 57 ∧ c.val ≠ 47 := by
  rcases List.mem_append.mp hc with hc | hc
  · exact h.val_of_mem_text hc
  · rcases hdot with rfl | rfl
    · exact absurd hc List.not_mem_nil
    · rw [List.mem_singleton.mp hc]
      decide

theorem isWhiteSpace_of_mem_core {c : CodeUnit} (hc : c ∈ a.text ++ dot) : isWhiteSpace c = false := by
  have := val_of_mem_core h hdot hc
  simp only [isWhiteSpace, decide_eq_false_iff_not, List.mem_cons, List.not_mem_nil, or_false]
  omega

theorem isPlain_of_mem_core {c : CodeUnit} (hc : c ∈ a.text ++ dot) : IsPlain c := by
  have hval := val_of_mem_core h hdot hc
  have hfold : foldCase c = c := if_neg (by omega)
  constructor <;> rw [hfold] <;> rintro rfl <;> omega

/-- The amount is what is left without the ending. -/
theorem trim_dropSuffix {g gap e : JsString} (hg : IsSpace g) (hgap : IsSpace gap) (he : OneOf endings e) :
    trim (dropSuffix (g ++ (a.text ++ dot ++ gap ++ e))) = a.text ++ dot := by
  have hplain : ∀ c ∈ g ++ (a.text ++ dot) ++ gap, IsPlain c := by
    intro c hc
    rcases List.mem_append.mp hc with hc | hc
    · rcases List.mem_append.mp hc with hc | hc
      · exact isPlain_of_isWhiteSpace (hg c hc)
      · exact isPlain_of_mem_core h hdot hc
    · exact isPlain_of_isWhiteSpace (hgap c hc)
  obtain ⟨w, hw, hkeep⟩ := dropSuffix_append hplain he
  have hassoc : g ++ (a.text ++ dot ++ gap ++ e) = g ++ (a.text ++ dot) ++ gap ++ e := by
    simp only [List.append_assoc]
  calc trim (dropSuffix (g ++ (a.text ++ dot ++ gap ++ e)))
      = trim ([] ++ dropSuffix (g ++ (a.text ++ dot ++ gap ++ e)) ++ w) := (trim_append .nil _ hw).symm
    _ = trim (g ++ (a.text ++ dot) ++ gap) := by rw [List.nil_append, hassoc, hkeep]
    _ = trim (a.text ++ dot) := trim_append hg _ hgap
    _ = a.text ++ dot := trim_eq_self
        (fun c hc => isWhiteSpace_of_mem_core h hdot (List.mem_of_mem_head? hc))
        fun c hc => isWhiteSpace_of_mem_core h hdot (List.mem_of_getLast? hc)

/-- Without a mark nothing is dropped at the beginning. -/
theorem dropPrefix_of_unmarked (rest : JsString) : dropPrefix (a.text ++ dot ++ rest) = a.text ++ dot ++ rest := by
  obtain ⟨c, t, ht, hc⟩ := h.exists_head
  have hspace : isWhiteSpace c = false :=
    isWhiteSpace_of_mem_core h hdot (List.mem_append_left dot (by rw [ht]; exact List.mem_cons_self))
  have hval := h.val_of_mem_text (show c ∈ a.text by rw [ht]; exact List.mem_cons_self)
  have hfold : foldCase c = c := if_neg (by omega)
  have hword : ∀ {word : JsString} {d : CodeUnit}, word.head? = some d → 57 < d.val →
      dropWord word (c :: (t ++ dot ++ rest)) = none := by
    refine fun hd hlarge => dropWord_eq_none hd fun b hb => ?_
    rw [← Option.some.inj hb, hfold]
    rintro rfl
    omega
  rw [ht, List.cons_append, List.cons_append, dropPrefix,
    List.dropWhile_cons_of_neg (by simp [isJsWhiteSpace, hspace]), dropMark,
    hword (d := 114) rfl (by decide), hword (d := 105) rfl (by decide), hword (d := 8377) rfl (by decide)]
  rfl

/-- A mark is dropped with the white space behind it, but for some that `trim` drops. -/
theorem dropPrefix_of_marked {m gap : JsString} (hm : m.map foldCase ∈ marks) (hgap : IsSpace gap)
    (rest : JsString) :
    ∃ g, IsSpace g ∧ dropPrefix (m ++ gap ++ (a.text ++ dot ++ rest)) = g ++ (a.text ++ dot ++ rest) := by
  obtain ⟨c, t, ht, hdigit⟩ := h.exists_head
  have hmem : c ∈ a.text := by rw [ht]; exact List.mem_cons_self
  have hcspace := isWhiteSpace_of_mem_core h hdot (List.mem_append_left dot hmem)
  have hval := h.val_of_mem_text hmem
  obtain ⟨b, m', rfl⟩ : ∃ b m', m = b :: m' := by
    cases m with
    | nil => exact absurd hm (by decide)
    | cons b m' => exact ⟨b, m', rfl⟩
  have hbspace := isWhiteSpace_of_mem_mark hm List.mem_cons_self
  have hpoint : (gap ++ (a.text ++ dot ++ rest)).head? ≠ some 46 := by
    cases gap with
    | nil =>
      rw [List.nil_append, ht]
      intro hc
      obtain rfl : c = 46 := Option.some.inj hc
      exact absurd hdigit (by decide)
    | cons d gap =>
      intro hd
      obtain rfl : d = 46 := Option.some.inj hd
      exact absurd (hgap 46 List.mem_cons_self) (by decide)
  refine ⟨gap.dropWhile isJsWhiteSpace, fun d hd => hgap d ((List.dropWhile_sublist _).subset hd), ?_⟩
  have hstop : (a.text ++ dot ++ rest).dropWhile isJsWhiteSpace = a.text ++ dot ++ rest := by
    rw [ht]
    exact List.dropWhile_cons_of_neg (by simp [isJsWhiteSpace, hcspace])
  rw [dropPrefix, List.append_assoc, List.cons_append,
    List.dropWhile_cons_of_neg (by simp [isJsWhiteSpace, hbspace]), ← List.cons_append, dropMark_append hm hpoint]
  simp only
  rw [List.dropWhile_append]
  split
  case isTrue hnil => rw [hstop, List.isEmpty_iff.mp hnil, List.nil_append]
  case isFalse => rfl

/-- White space at both ends of a marked amount is trimmed. -/
theorem trim_written {l x gap e r : JsString} (hl : IsSpace l) (hx : ∀ c ∈ x.head?, isWhiteSpace c = false)
    (hgap : IsSpace gap) (he : OneOf endings e) (hr : IsSpace r) :
    ∃ gap', IsSpace gap' ∧ trim (l ++ (x ++ (a.text ++ dot ++ gap ++ e)) ++ r) =
      x ++ (a.text ++ dot ++ gap' ++ e) := by
  have hhead : ∀ t : JsString, ∀ c ∈ (x ++ (a.text ++ dot ++ t)).head?, isWhiteSpace c = false := by
    intro t c hc
    cases x with
    | nil =>
      obtain ⟨d, u, hd, -⟩ := h.exists_head
      rw [List.nil_append, hd] at hc
      obtain rfl : d = c := Option.some.inj hc
      exact isWhiteSpace_of_mem_core h hdot (List.mem_append_left dot (by rw [hd]; exact List.mem_cons_self))
    | cons d x => exact hx c hc
  rw [trim_append hl _ hr]
  rcases he with rfl | he
  · refine ⟨[], .nil, ?_⟩
    have hassoc : x ++ (a.text ++ dot ++ gap ++ []) = [] ++ (x ++ (a.text ++ dot)) ++ gap := by
      simp only [List.append_assoc, List.append_nil, List.nil_append]
    have hlast : ∀ c ∈ (x ++ (a.text ++ dot)).getLast?, isWhiteSpace c = false := by
      intro c hc
      obtain ⟨d, u, hd, -⟩ := h.exists_head
      rw [List.getLast?_append_of_ne_nil _ (by rw [hd]; exact List.cons_ne_nil _ _)] at hc
      exact isWhiteSpace_of_mem_core h hdot (List.mem_of_getLast? hc)
    have hcore : ∀ c ∈ (x ++ (a.text ++ dot)).head?, isWhiteSpace c = false := by
      have := hhead []
      rwa [List.append_nil] at this
    rw [hassoc, trim_append .nil _ hgap, trim_eq_self hcore hlast, List.append_nil, List.append_nil]
  · refine ⟨gap, hgap, trim_eq_self ?_ fun c hc => ?_⟩
    · have := hhead (gap ++ e)
      rwa [← List.append_assoc (a.text ++ dot)] at this
    · have hne : e ≠ [] := by
        obtain ⟨d, u, rfl, -⟩ := head_ending he
        exact List.cons_ne_nil d u
      rw [← List.append_assoc, List.getLast?_append_of_ne_nil _ hne] at hc
      exact isWhiteSpace_of_mem_ending he (List.mem_of_getLast? hc)

end Written

/-- **Nothing but the amount is left** of a text that writes it. -/
theorem bareAmount_of_written {text : JsString} {a : WrittenAmount} (hwritten : Written text a) :
    bareAmount text = a.text := by
  obtain ⟨h, before, m, gap, dot, gap', e, after, hbefore, hm, hgap, hdot, hgap', he, hafter, rfl⟩ := hwritten
  have hstrip : ∃ g gap'', IsSpace g ∧ IsSpace gap'' ∧
      dropPrefix (trim (before ++ m ++ gap ++ a.text ++ dot ++ gap' ++ e ++ after)) =
        g ++ (a.text ++ dot ++ gap'' ++ e) := by
    rcases hm with rfl | hm
    · have hassoc : before ++ [] ++ gap ++ a.text ++ dot ++ gap' ++ e ++ after =
          (before ++ gap) ++ ([] ++ (a.text ++ dot ++ gap' ++ e)) ++ after := by
        simp only [List.append_assoc, List.nil_append]
      obtain ⟨gap'', hgap'', htrim⟩ := trim_written h hdot (hbefore.append hgap)
        (x := []) (fun c hc => nomatch hc) hgap' he hafter
      refine ⟨[], gap'', .nil, hgap'', ?_⟩
      rw [hassoc, htrim, List.nil_append, List.append_assoc _ gap'', dropPrefix_of_unmarked h hdot]
    · have hassoc : before ++ m ++ gap ++ a.text ++ dot ++ gap' ++ e ++ after =
          before ++ ((m ++ gap) ++ (a.text ++ dot ++ gap' ++ e)) ++ after := by
        simp only [List.append_assoc]
      have hhead : ∀ c ∈ (m ++ gap).head?, isWhiteSpace c = false := by
        cases m with
        | nil => exact absurd hm (by decide)
        | cons b m =>
          intro c hc
          obtain rfl : b = c := Option.some.inj hc
          exact isWhiteSpace_of_mem_mark hm List.mem_cons_self
      obtain ⟨gap'', hgap'', htrim⟩ := trim_written h hdot hbefore hhead hgap' he hafter
      obtain ⟨g, hg, hprefix⟩ := dropPrefix_of_marked h hdot hm hgap (gap'' ++ e)
      refine ⟨g, gap'', hg, hgap'', ?_⟩
      rw [hassoc, htrim, List.append_assoc _ gap'', hprefix]
  obtain ⟨g, gap'', hg, hgap'', hstrip⟩ := hstrip
  rw [bareAmount, hstrip, trim_dropSuffix h hdot hg hgap'' he]
  rcases hdot with rfl | rfl
  · rw [List.append_nil, if_neg h.getLast_text]
  · rw [List.getLast?_concat, if_pos rfl, List.dropLast_concat]

/-- **What is read as an amount writes it.** -/
theorem written_of_bareAmount {text : JsString} {a : WrittenAmount} (h : a.Valid) (hbare : bareAmount text = a.text) :
    Written text a := by
  obtain ⟨l, r, hl, hr, htext⟩ := exists_trim text
  obtain ⟨before, m, gap, hbefore, hm, hgap, hprefix⟩ := exists_dropPrefix (trim text)
  obtain ⟨gap', e, after, hgap', he, hafter, hsuffix⟩ := exists_dropSuffix (dropPrefix (trim text))
  obtain ⟨l', r', hl', hr', hcore⟩ := exists_trim (dropSuffix (dropPrefix (trim text)))
  have hdot : ∃ dot, (dot = [] ∨ dot = [46]) ∧ trim (dropSuffix (dropPrefix (trim text))) = a.text ++ dot := by
    rw [bareAmount] at hbare
    split_ifs at hbare with hlast
    · obtain ⟨t, ht⟩ := List.getLast?_eq_some_iff.mp hlast
      rw [ht, List.dropLast_concat] at hbare
      exact ⟨[46], .inr rfl, by rw [ht, hbare]⟩
    · exact ⟨[], .inl rfl, by rw [hbare, List.append_nil]⟩
  obtain ⟨dot, hdot, htrim⟩ := hdot
  refine ⟨h, l ++ before, m, gap ++ l', dot, r' ++ gap', e, after ++ r, hl.append hbefore, hm, hgap.append hl', hdot,
    hr'.append hgap', he, hafter.append hr, ?_⟩
  calc text = l ++ trim text ++ r := htext
    _ = l ++ (before ++ m ++ gap ++ dropPrefix (trim text)) ++ r := by rw [← hprefix]
    _ = l ++ (before ++ m ++ gap ++ (dropSuffix (dropPrefix (trim text)) ++ gap' ++ e ++ after)) ++ r := by
        rw [← hsuffix]
    _ = l ++ (before ++ m ++ gap ++ (l' ++ (a.text ++ dot) ++ r' ++ gap' ++ e ++ after)) ++ r := by
        rw [← htrim, ← hcore]
    _ = l ++ before ++ m ++ (gap ++ l') ++ a.text ++ dot ++ (r' ++ gap') ++ e ++ (after ++ r) := by
        simp only [List.append_assoc]

/-! ### Numbers -/

theorem unsignedValue_lt {s : JsString} (hs : ∀ c ∈ s, isDigit c = true) : unsignedValue s < 10 ^ s.length := by
  have hlt : ∀ x ∈ s.reverse.map digitValue, x < 10 := by
    intro x hx
    obtain ⟨c, hc, rfl⟩ := List.mem_map.mp hx
    exact digitValue_lt (hs c (List.mem_reverse.mp hc))
  have hbound := Nat.ofDigits_lt_base_pow_length (by norm_num) hlt
  rwa [List.length_map, List.length_reverse] at hbound

theorem unsignedValue_cons (c : CodeUnit) (s : JsString) :
    unsignedValue (c :: s) = digitValue c * 10 ^ s.length + unsignedValue s := by
  rw [← List.singleton_append, unsignedValue_append]
  congr 2

/-- Only zeros denote zero. -/
theorem unsignedValue_eq_zero_iff {s : JsString} (hs : ∀ c ∈ s, isDigit c = true) :
    unsignedValue s = 0 ↔ s.any (·.val ≠ 48) = false := by
  induction s with
  | nil => exact ⟨fun _ => rfl, fun _ => rfl⟩
  | cons c s ih =>
    have hc := hs c List.mem_cons_self
    simp only [isDigit, decide_eq_true_eq] at hc
    have hpow : 10 ^ s.length ≠ 0 := by positivity
    rw [unsignedValue_cons, Nat.add_eq_zero_iff, ih fun d hd => hs d (List.mem_cons_of_mem c hd), List.any_cons,
      Bool.or_eq_false_iff, Nat.mul_eq_zero, or_iff_left hpow, decide_eq_false_iff_not, not_not, digitValue]
    exact and_congr_left fun _ => by omega

/-- The paise of a fraction are the hundredths that it denotes. -/
theorem fractionPaise_eq_some_iff {s : JsString} (hs : ∀ c ∈ s, isDigit c = true) (k : ℕ) :
    fractionPaise s = some k ↔ k * 10 ^ s.length = 100 * unsignedValue s := by
  rw [fractionPaise]
  by_cases hlong : 2 < s.length
  · have hsplit := List.take_append_drop 2 s
    have htake : (s.take 2).length = 2 := List.length_take_of_le hlong.le
    have hdrop : ∀ c ∈ s.drop 2, isDigit c = true := fun c hc => hs c (List.mem_of_mem_drop hc)
    have hlt := unsignedValue_lt hdrop
    have hvalue : unsignedValue s =
        unsignedValue (s.take 2) * 10 ^ (s.drop 2).length + unsignedValue (s.drop 2) := by
      rw [← unsignedValue_append, hsplit]
    have hpow : 10 ^ s.length = 100 * 10 ^ (s.drop 2).length := by
      rw [← hsplit, List.length_append, htake, pow_add, hsplit]
      norm_num
    have hcancel : k * 10 ^ s.length = 100 * unsignedValue s ↔ k * 10 ^ (s.drop 2).length =
        unsignedValue (s.take 2) * 10 ^ (s.drop 2).length + unsignedValue (s.drop 2) := by
      rw [hpow, hvalue, mul_left_comm]
      exact Nat.mul_left_cancel_iff (by norm_num)
    rw [hcancel]
    cases hany : (s.drop 2).any (·.val ≠ 48) with
    | true =>
      have hne : unsignedValue (s.drop 2) ≠ 0 := by
        intro hzero
        rw [(unsignedValue_eq_zero_iff hdrop).mp hzero] at hany
        cases hany
      rw [if_pos ⟨hlong, rfl⟩]
      refine ⟨fun h => (nomatch h), fun h => absurd ?_ hne⟩
      -- the remainder of both sides by the power of ten
      have hmod := congrArg (· % 10 ^ (s.drop 2).length) h
      simp only [Nat.mul_mod_left, Nat.mul_add_mod_self_right, Nat.mod_eq_of_lt hlt] at hmod
      exact hmod.symm
    | false =>
      have hzero := (unsignedValue_eq_zero_iff hdrop).mpr hany
      rw [if_neg fun h => Bool.false_ne_true h.2, hzero, Nat.add_zero, Nat.mul_right_cancel_iff (by positivity)]
      simp only [htake, Nat.sub_self, List.replicate_zero, List.append_nil, Option.some.injEq]
      exact eq_comm
  · have hshort : s.length ≤ 2 := not_lt.mp hlong
    have hpow : 10 ^ (2 - s.length) * 10 ^ s.length = 100 := by
      rw [← pow_add, Nat.sub_add_cancel hshort]
      norm_num
    rw [if_neg fun h => hlong h.1, List.take_of_length_le hshort]
    simp only [unsignedValue_append_zeros, Option.some.injEq]
    constructor
    · rintro rfl
      rw [mul_assoc, hpow, mul_comm]
    · intro h
      refine Nat.eq_of_mul_eq_mul_right (Nat.pow_pos (n := s.length) (show 0 < 10 by norm_num)) ?_
      rw [h, mul_assoc, hpow, mul_comm]

/-- **An amount is read exactly or refused.** -/
theorem parseAmountIndian_eq_some_iff {text : JsString} {a : WrittenAmount} (hwritten : Written text a) (p : ℕ) :
    parseAmountIndian text = some p ↔ (p : ℚ) = 100 * a.number ∧ p ≤ maxPaise := by
  have h := hwritten.1
  have hnumber : (p : ℚ) = 100 * a.number ↔
      p * 10 ^ a.fraction.length = 100 * unsignedValue a.digits * 10 ^ a.fraction.length + 100 * unsignedValue a.fraction := by
    have hpow : (10 : ℚ) ^ a.fraction.length ≠ 0 := by positivity
    rw [WrittenAmount.number, mul_add, ← mul_div_assoc, eq_comm, ← eq_sub_iff_add_eq', div_eq_iff hpow, sub_mul,
      eq_sub_iff_add_eq']
    norm_cast
    exact eq_comm
  rw [parseAmountIndian, bareAmount_of_written hwritten, amountBody_eq_some_iff.mpr ⟨h, rfl⟩, hnumber]
  simp only
  constructor
  · intro hparse
    cases hfraction : fractionPaise a.fraction with
    | none => simp [hfraction] at hparse
    | some k =>
      rw [hfraction] at hparse
      simp only at hparse
      split_ifs at hparse with hmax
      obtain rfl := Option.some.inj hparse
      refine ⟨?_, not_lt.mp hmax⟩
      rw [Nat.add_mul, (fractionPaise_eq_some_iff h.fraction k).mp hfraction]
      ring
  · rintro ⟨hvalue, hmax⟩
    have hle : 100 * unsignedValue a.digits ≤ p :=
      Nat.le_of_mul_le_mul_right (hvalue ▸ Nat.le_add_right _ _) (Nat.pow_pos (show 0 < 10 by norm_num))
    obtain ⟨k, rfl⟩ := Nat.exists_eq_add_of_le hle
    have hk : k * 10 ^ a.fraction.length = 100 * unsignedValue a.fraction := by
      rw [Nat.add_mul] at hvalue
      exact Nat.add_left_cancel hvalue
    rw [(fractionPaise_eq_some_iff h.fraction k).mpr hk]
    simp only
    rw [mul_comm (unsignedValue a.digits), if_neg (not_lt.mpr hmax)]

/-! ### Printed amounts -/

theorem mem_groupPairs {s : JsString} {c : CodeUnit} (hc : c ∈ groupPairs s) : c ∈ s ∨ c = 44 := by
  induction s with
  | nil => exact .inl hc
  | cons d s ih =>
    have htail : c ∈ groupPairs s → c ∈ d :: s ∨ c = 44 := fun hc => (ih hc).imp_left (List.mem_cons_of_mem d)
    rw [groupPairs] at hc
    split_ifs at hc
    · rcases List.mem_cons.mp hc with rfl | hc
      · exact .inl List.mem_cons_self
      · exact (List.mem_cons.mp hc).elim .inr htail
    · rcases List.mem_cons.mp hc with rfl | hc
      · exact .inl List.mem_cons_self
      · exact htail hc

theorem head?_groupPairs (s : JsString) : (groupPairs s).head? = s.head? := by
  cases s with
  | nil => rfl
  | cons c s =>
    rw [groupPairs]
    split_ifs <;> rfl

/-- Grouping adds commas only. -/
theorem filter_groupPairs {s : JsString} (hs : ∀ c ∈ s, isDigit c = true) :
    (groupPairs s).filter (·.val ≠ 44) = s := by
  induction s with
  | nil => rfl
  | cons c s ih =>
    have hkeep : decide (c.val ≠ 44) = true := by
      have hc := hs c List.mem_cons_self
      simp only [isDigit, decide_eq_true_eq] at hc ⊢
      omega
    have hcomma : ¬ decide ((44 : CodeUnit).val ≠ 44) = true := by decide
    have ih := ih fun d hd => hs d (List.mem_cons_of_mem c hd)
    rw [groupPairs]
    split_ifs
    · rw [List.filter_cons, if_pos hkeep, List.filter_cons, if_neg hcomma, ih]
    · rw [List.filter_cons, if_pos hkeep, ih]

section Grouped

variable {s : JsString} (hs : ∀ c ∈ s, isDigit c = true)
include hs

theorem filter_isDigit : s.filter (·.val ≠ 44) = s :=
  List.filter_eq_self.mpr fun c hc => by
    have hc := hs c hc
    simp only [isDigit, decide_eq_true_eq] at hc ⊢
    omega

theorem filter_grouped : (grouped s).filter (·.val ≠ 44) = s := by
  rw [grouped]
  split_ifs
  · exact filter_isDigit hs
  · rw [List.filter_append, filter_groupPairs fun c hc => hs c (List.mem_of_mem_take hc),
      List.filter_cons_of_neg (by decide), filter_isDigit fun c hc => hs c (List.mem_of_mem_drop hc),
      List.take_append_drop]

theorem isGrouped_of_mem_grouped {c : CodeUnit} (hc : c ∈ grouped s) : isGrouped c = true := by
  have hcomma : isGrouped 44 = true := by decide
  rw [grouped] at hc
  split_ifs at hc
  · exact isGrouped_of_isDigit (hs c hc)
  · rcases List.mem_append.mp hc with hc | hc
    · rcases mem_groupPairs hc with hc | rfl
      · exact isGrouped_of_isDigit (hs c (List.mem_of_mem_take hc))
      · exact hcomma
    · rcases List.mem_cons.mp hc with rfl | hc
      · exact hcomma
      · exact isGrouped_of_isDigit (hs c (List.mem_of_mem_drop hc))

theorem head?_grouped (hne : s ≠ []) : (grouped s).head?.any isDigit = true := by
  obtain ⟨c, t, rfl⟩ := List.exists_cons_of_ne_nil hne
  have hhead : (grouped (c :: t)).head? = some c := by
    rw [grouped]
    split_ifs with hshort
    · rfl
    · obtain ⟨n, hn⟩ : ∃ n, (c :: t).length - 3 = n + 1 := ⟨(c :: t).length - 4, by omega⟩
      rw [List.head?_append, head?_groupPairs, hn, List.take_succ_cons, List.head?_cons, Option.some_or]
  rw [hhead]
  exact hs c List.mem_cons_self

end Grouped

/-- The amount that is printed. -/
def printedAmount (minor : ℕ) : WrittenAmount where
  whole := grouped (decimal (minor / 100))
  fraction := if minor % 100 = 0 then []
    else List.replicate (2 - (decimal (minor % 100)).length) 48 ++ decimal (minor % 100)

theorem formatReceiptRupees_eq (minor : ℕ) : formatReceiptRupees minor = 8377 :: (printedAmount minor).text := by
  rw [formatReceiptRupees, WrittenAmount.text, printedAmount]
  by_cases hwhole : minor % 100 = 0
  · simp only [if_pos hwhole, if_true]
  · have hne : List.replicate (2 - (decimal (minor % 100)).length) 48 ++ decimal (minor % 100) ≠ [] := by
      obtain ⟨c, cs, hc, -⟩ := val_head_decimal (minor % 100)
      rw [hc]
      exact List.append_ne_nil_of_right_ne_nil _ (List.cons_ne_nil c cs)
    simp only [if_neg hwhole, if_neg hne]

theorem valid_printedAmount (minor : ℕ) : (printedAmount minor).Valid where
  head := by
    obtain ⟨c, cs, hc, -⟩ := val_head_decimal (minor / 100)
    exact head?_grouped (isDigit_of_isUnsigned (isUnsigned_decimal _)) (by rw [hc]; exact List.cons_ne_nil c cs)
  whole _ hc := isGrouped_of_mem_grouped (isDigit_of_isUnsigned (isUnsigned_decimal _)) hc
  fraction c hc := by
    rw [printedAmount] at hc
    simp only at hc
    split_ifs at hc
    · exact absurd hc List.not_mem_nil
    · rcases List.mem_append.mp hc with hc | hc
      · rw [List.eq_of_mem_replicate hc]
        decide
      · exact isDigit_of_isUnsigned (isUnsigned_decimal _) c hc

/-- What is printed is a hundredth of the paise. -/
theorem number_printedAmount (minor : ℕ) : (minor : ℚ) = 100 * (printedAmount minor).number := by
  have hdigits : (printedAmount minor).digits = decimal (minor / 100) :=
    filter_grouped (isDigit_of_isUnsigned (isUnsigned_decimal _))
  have hfraction : (100 : ℚ) * (unsignedValue (printedAmount minor).fraction /
      10 ^ (printedAmount minor).fraction.length) = (minor % 100 : ℕ) := by
    rw [printedAmount]
    simp only
    split_ifs with hwhole
    · rw [hwhole]
      norm_num [unsignedValue]
    · have hlength : (decimal (minor % 100)).length ≤ 2 := length_decimal_le (by norm_num) (by omega)
      rw [unsignedValue_zeros_append, unsignedValue_decimal, List.length_append, List.length_replicate,
        Nat.sub_add_cancel hlength]
      ring
  rw [WrittenAmount.number, mul_add, hfraction, hdigits, unsignedValue_decimal]
  exact_mod_cast (Nat.div_add_mod minor 100).symm

theorem written_formatReceiptRupees (minor : ℕ) : Written (formatReceiptRupees minor) (printedAmount minor) := by
  refine ⟨valid_printedAmount minor, [], [8377], [], [], [], [], [], .nil, .inr (by decide), .nil, .inl rfl, .nil,
    .inl rfl, .nil, ?_⟩
  rw [formatReceiptRupees_eq]
  simp only [List.nil_append, List.append_nil, List.singleton_append]

/-- **Rupees come back unrounded.** What a question prints is read back as it was. Of any other text an amount
is read if and only if the text writes one that whole paise up to the limit make, and it is this amount. -/
theorem rupee_round_trip :
    (∀ minor, minor ≤ maxPaise → parseAmountIndian (formatReceiptRupees minor) = some minor) ∧
      (∀ text p, parseAmountIndian text = some p →
        ∃ a, Written text a ∧ (p : ℚ) = 100 * a.number ∧ p ≤ maxPaise) ∧
      ∀ text a, Written text a → ∀ p, parseAmountIndian text = some p ↔ (p : ℚ) = 100 * a.number ∧ p ≤ maxPaise := by
  refine ⟨fun minor hmax => ?_, fun text p hparse => ?_, fun text a h p => parseAmountIndian_eq_some_iff h p⟩
  · exact (parseAmountIndian_eq_some_iff (written_formatReceiptRupees minor) minor).mpr
      ⟨number_printedAmount minor, hmax⟩
  · cases hbody : amountBody (bareAmount text) with
    | none => simp [parseAmountIndian, hbody] at hparse
    | some a =>
      obtain ⟨hvalid, hbare⟩ := amountBody_eq_some_iff.mp hbody
      have hwritten := written_of_bareAmount hvalid hbare
      exact ⟨a, hwritten, (parseAmountIndian_eq_some_iff hwritten p).mp hparse⟩

/-- A lakh and a quarter, an amount of a message, and seven paise. -/
theorem rupee_round_trip_lakh :
    parseAmountIndian (formatReceiptRupees 12500000) = some 12500000 ∧
      (∃ a, Written (js "Rs. 1,499.50/-") a ∧ ((149950 : ℕ) : ℚ) = 100 * a.number ∧ 149950 ≤ maxPaise) ∧
      (parseAmountIndian (formatReceiptRupees 7) = some 7 ↔
        ((7 : ℕ) : ℚ) = 100 * (printedAmount 7).number ∧ 7 ≤ maxPaise) :=
  ⟨rupee_round_trip.1 12500000 (by decide), rupee_round_trip.2.1 _ 149950 (by decide),
    rupee_round_trip.2.2 _ _ (written_formatReceiptRupees 7) 7⟩

end PandaPay.SmsV2
