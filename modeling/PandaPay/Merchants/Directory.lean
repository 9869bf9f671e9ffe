import PandaPay.Library.IndexBy
import PandaPay.PortableBackup.Sessions

/-!
# The merchant directory

A merchant is recognized by the handle of a UPI address, or by one of its aliases in the name that a payment comes
with. A merchant may have a parent, which has another one in turn. The server and the phone each resolve merchants.
How letters are turned into small ones is a parameter.

## Main definitions

* `Merchant`: a row of the directory
* `resolveMerchant`, `merchantChain`: the server's resolver, of `merchant_directory.js`
* `Dart.resolve`, `Dart.lineage`: the phone's resolver, of `merchant_directory.dart`
-/

namespace PandaPay.Merchants

open PortableBackup (jsTrim isJsWhiteSpace)

/-- A row of `merchant_brands`. -/
structure Merchant where
  slug : JsString
  /-- `check (slug ~ '^[a-z0-9_]+$')`. -/
  slug_ne_nil : slug ≠ []
  parentSlug : Option JsString := none
  aliases : List JsString := []
  vpaPrefixes : List JsString := []
  isActive : Option Bool := none

/-! ### Text -/

/-- `[a-z0-9]`. -/
def isWordUnit (c : CodeUnit) : Bool := (97 ≤ c.val ∧ c.val ≤ 122) ∨ (48 ≤ c.val ∧ c.val ≤ 57)

/-- `replace(/[^a-z0-9]+/g, ' ')`, inside of such a run or not. -/
def replaceRuns (inRun : Bool) : JsString → JsString
  | [] => []
  | c :: s =>
    if isWordUnit c then c :: replaceRuns false s
    else if inRun then replaceRuns true s
    else 32 :: replaceRuns true s

/-- The part of an address before its `@`. -/
def beforeAt (vpa : JsString) : JsString := if 64 ∈ vpa then vpa.take (vpa.idxOf 64) else vpa

/-- `text.includes(' ' + key + ' ')`, of a text with a space before and behind it. -/
def hasWords (text key : JsString) : Bool := js " " ++ key ++ js " " <:+: js " " ++ text ++ js " "

/-! ### The server -/

variable (toLowerCase : JsString → JsString)

/-- `normalize(value)`. -/
def normalize (value : Option JsString) : JsString := jsTrim (replaceRuns false (toLowerCase (value.getD [])))

/-- `{ slug, match }`. -/
structure Entry where
  slug : JsString
  key : JsString

/-- `better(a, b)`. -/
def better (a : Entry) : Option Entry → Bool
  | none => true
  | some b => if a.key.length ≠ b.key.length then b.key.length < a.key.length else a.slug < b.slug

/-- What `loadDirectory` returns. -/
structure Directory where
  merchants : InsertionMap JsString Merchant
  aliasIndex : List Entry
  vpaIndex : List Entry

/-- The normalized texts of the active merchants. -/
def entriesOf (texts : Merchant → List JsString) (merchants : List Merchant) : List Entry :=
  (merchants.filter fun m => m.isActive ≠ some false).flatMap fun m =>
    ((texts m).map fun text => ⟨m.slug, normalize toLowerCase (some text)⟩).filter (·.key ≠ [])

/-- `loadDirectory(json)`. -/
def loadDirectory (merchants : List Merchant) : Directory :=
  let rows := merchants.filter fun m => m.slug ≠ []
  { merchants := indexBy Merchant.slug id rows
    aliasIndex := entriesOf toLowerCase Merchant.aliases rows
    vpaIndex := entriesOf toLowerCase Merchant.vpaPrefixes rows }

/-- The loop over an index. -/
def pick (isMatch : Entry → Bool) (index : List Entry) : Option Entry :=
  index.foldl (fun best entry => if isMatch entry && better entry best then some entry else best) none

/-- What a merchant is recognized by. -/
inductive Via where
  | vpa
  | «alias»
  deriving DecidableEq

/-- `{ slug, via, match }`. -/
structure Hit where
  slug : JsString
  via : Via
  key : JsString

/-- The merchant of a UPI address. -/
def resolveVpa (directory : Directory) (vpa : Option JsString) : Option Entry :=
  match vpa with
  | none => none
  | some raw =>
    if jsTrim raw = [] then none
    else
      let user := normalize toLowerCase (some (beforeAt raw))
      if user = [] then none else pick (fun entry => entry.key <+: user) directory.vpaIndex

/-- `resolveMerchant(dir, name, vpa)`. -/
def resolveMerchant (directory : Directory) (name vpa : Option JsString) : Option Hit :=
  match resolveVpa toLowerCase directory vpa with
  | some best => some ⟨best.slug, .vpa, best.key⟩
  | none =>
    let text := normalize toLowerCase name
    if text = [] then none
    else (pick (fun entry => hasWords text entry.key) directory.aliasIndex).map fun best =>
      ⟨best.slug, .«alias», best.key⟩

/-- `MAX_ANCESTOR_DEPTH`. -/
def maxAncestorDepth : ℕ := 5

/-- The loop of `ancestors`, for the levels that are left. -/
def ancestorsFrom (merchants : InsertionMap JsString Merchant) : ℕ → List JsString → Option Merchant → List JsString
  | levels + 1, seen, some current =>
    match current.parentSlug with
    | none => []
    | some parent =>
      if parent = [] ∨ parent ∈ seen then []
      else parent :: ancestorsFrom merchants levels (seen ++ [parent]) (merchants.get? parent)
  | _, _, _ => []

/-- `ancestors(dir, slug)`. -/
def ancestors (directory : Directory) (slug : JsString) : List JsString :=
  ancestorsFrom directory.merchants maxAncestorDepth [slug] (directory.merchants.get? slug)

/-- `merchantChain` of a context whose merchant is resolved. -/
def merchantChain (merchants : List Merchant) (name vpa : Option JsString) : List JsString :=
  let directory := loadDirectory toLowerCase merchants
  match resolveMerchant toLowerCase directory name vpa with
  | none => []
  | some hit => hit.slug :: ancestors directory hit.slug

/-! ### The phone -/

namespace Dart

/-- `normalizeMerchantText(value)`. -/
def normalizeMerchantText (value : JsString) : JsString := trim (replaceRuns false (toLowerCase value))

/-- The candidates of the active merchants. -/
def candidatesOf (texts : Merchant → List JsString) (merchants : List Merchant) : List Entry :=
  ((merchants.filter fun m => m.isActive.getD true).flatMap fun m =>
    (texts m).map fun text => ⟨m.slug, normalizeMerchantText toLowerCase text⟩).filter (·.key ≠ [])

/-- `_best(candidates)`. -/
def best (candidates : List Entry) : Option Entry :=
  candidates.foldl (fun best c =>
    match best with
    | none => some c
    | some b =>
      if b.key.length < c.key.length ∨
          (c.key.length = b.key.length ∧ (c.slug < b.slug ∨ (c.slug = b.slug ∧ c.key < b.key))) then some c
      else some b) none

/-- The loop of `lineage`, for the levels that are left. -/
def lineageFrom (bySlug : InsertionMap JsString Merchant) : ℕ → List JsString → Option Merchant → List JsString
  | 0, out, _ => out
  | levels + 1, out, current =>
    match current.bind Merchant.parentSlug with
    | none => out
    | some parent =>
      if parent = [] ∨ parent ∈ out then out
      else lineageFrom bySlug levels (out ++ [parent]) (bySlug.get? parent)

/-- `lineage(slug)`. -/
def lineage (merchants : List Merchant) (slug : JsString) : List JsString :=
  let bySlug := indexBy Merchant.slug id merchants
  lineageFrom bySlug maxAncestorDepth [slug] (bySlug.get? slug)

/-- `MerchantMatch`. -/
structure MerchantMatch where
  slug : JsString
  source : Via
  matched : JsString
  lineage : List JsString

/-- The candidate for a UPI address. -/
def bestVpa (merchants : List Merchant) (vpa : Option JsString) : Option Entry :=
  match vpa with
  | none => none
  | some vpa =>
    let handle := normalizeMerchantText toLowerCase (beforeAt vpa)
    if handle = [] then none
    else best ((candidatesOf toLowerCase Merchant.vpaPrefixes merchants).filter fun c => c.key <+: handle)

/-- The candidate for a name. -/
def bestAlias (merchants : List Merchant) (merchantName : Option JsString) : Option Entry :=
  match merchantName with
  | none => none
  | some merchantName =>
    let text := normalizeMerchantText toLowerCase merchantName
    if trim (js " " ++ text ++ js " ") = [] then none
    else best ((candidatesOf toLowerCase Merchant.aliases merchants).filter fun c => hasWords text c.key)

/-- `resolve({merchantName, vpa})`. -/
def resolve (merchants : List Merchant) (merchantName vpa : Option JsString) : Option MerchantMatch :=
  match bestVpa toLowerCase merchants vpa with
  | some best => some ⟨best.slug, .vpa, best.key, lineage merchants best.slug⟩
  | none => (bestAlias toLowerCase merchants merchantName).map fun best =>
      ⟨best.slug, .«alias», best.key, lineage merchants best.slug⟩

end Dart

end PandaPay.Merchants
