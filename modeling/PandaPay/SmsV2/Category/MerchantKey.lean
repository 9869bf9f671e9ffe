import PandaPay.Json.Decimal
import PandaPay.Json.Value
import PandaPay.Library.IndexBy
import PandaPay.SmsV2.Contract

/-!
# Merchant keys and the taxonomy

The key of a counterparty that category rules match on (`category/merchant_key.dart`), and the slugs of the
taxonomy (`category/taxonomy_registry.dart`). What Dart makes of letters in upper and lower case is given.

## Main definitions

* `normalizeMerchantText`, `merchantTokens`
* `MerchantKeyer.keyFor`, `MerchantKeyer.personRuleKey`
* `TaxonomyRegistry`: slugs and aliases, none of them used twice
-/

namespace PandaPay.SmsV2.Category

/-- What Dart makes of letters. -/
structure Letters where
  toUpperCase : JsString → JsString
  toLowerCase : JsString → JsString

/-! ### Texts -/

/-- What stands in `[A-Z0-9&]`. -/
def isKeyUnit (c : CodeUnit) : Bool := (65 ≤ c.val ∧ c.val ≤ 90) ∨ isDigit c ∨ c.val = 38

/-- `replaceAll(RegExp('[…]+'), ' ')`, behind a run or not. -/
def spaceRuns (p : CodeUnit → Bool) : Bool → JsString → JsString
  | _, [] => []
  | inRun, c :: s =>
    if p c then if inRun then spaceRuns p true s else 32 :: spaceRuns p true s
    else c :: spaceRuns p false s

/-- `normalizeMerchantText(raw)`. -/
def normalizeMerchantText (letters : Letters) (raw : JsString) : JsString :=
  spaceRuns (·.val = 32) false (trim (spaceRuns (fun c => !isKeyUnit c) false (letters.toUpperCase raw)))

/-- `merchantTokens(normalizedKey)`. -/
def merchantTokens (normalizedKey : JsString) : List JsString :=
  if normalizedKey = [] then [] else normalizedKey.splitOn 32

/-- `tokens.join(' ')`. -/
def joinTokens (tokens : List JsString) : JsString := List.intercalate [32] tokens

/-- `_legalSuffixes`. -/
def legalSuffixes : List JsString := [js "LTD", js "LIMITED", js "LLP", js "INC", js "LLC", js "PLC"]

/-- `_legalQualifiers`. -/
def legalQualifiers : List JsString := [js "PVT", js "PRIVATE"]

/-- The loop of `stripLegalSuffix`, on the tokens from the last one on. -/
def dropLegal (strippedSuffix : Bool) : List JsString → List JsString
  | last :: token :: tokens =>
    if last ∈ legalSuffixes then dropLegal true (token :: tokens)
    else if last ∈ legalQualifiers ∨ (last = js "P" ∧ strippedSuffix) then dropLegal strippedSuffix (token :: tokens)
    else last :: token :: tokens
  | tokens => tokens

/-- `stripLegalSuffix(normalizedKey)`. -/
def stripLegalSuffix (normalizedKey : JsString) : JsString :=
  joinTokens (dropLegal false (merchantTokens normalizedKey).reverse).reverse

/-- `_vpaNoise`. -/
def vpaNoise : List JsString :=
  [js "RZP", js "RAZORPAY", js "PAYU", js "BILLDESK", js "CCAVENUE", js "QR", js "UPI", js "PAYTMQR",
    js "PAYMENT", js "PAYMENTS"]

/-- `_longDigits`, `\d{4,}`, matches somewhere. -/
def hasLongDigits (token : JsString) : Bool := token.tails.any fun s => 4 ≤ (s.takeWhile isDigit).length

/-! ### Keys -/

/-- `MerchantAlias`. -/
structure MerchantAlias where
  alias_ : JsString
  merchantKey : JsString

/-- `MerchantKeyer(aliases)`. -/
structure MerchantKeyer where
  letters : Letters
  aliases : InsertionMap JsString JsString

namespace MerchantKeyer

/-- The constructor of `MerchantKeyer`. -/
def make (letters : Letters) (aliases : List MerchantAlias) : MerchantKeyer where
  letters := letters
  aliases :=
    indexBy (fun a => normalizeMerchantText letters a.alias_) (fun a => normalizeMerchantText letters a.merchantKey)
      (aliases.filter fun a =>
        normalizeMerchantText letters a.alias_ ≠ [] ∧ normalizeMerchantText letters a.merchantKey ≠ [])

variable (keyer : MerchantKeyer)

/-- `keyForName(raw)`. -/
def keyForName (raw : JsString) : Option JsString :=
  let n := normalizeMerchantText keyer.letters raw
  if n = [] ∨ n.all (fun c => isDigit c || c.val = 32) then none
  else
    match keyer.aliases.get? n with
    | some direct => some direct
    | none => some ((keyer.aliases.get? (stripLegalSuffix n)).getD (stripLegalSuffix n))

/-- `keyForVpa(vpa)`. -/
def keyForVpa (vpa : JsString) : Option JsString :=
  match keyer.aliases.get? (normalizeMerchantText keyer.letters vpa) with
  | some full => some full
  | none =>
    let localKey := normalizeMerchantText keyer.letters (vpa.takeWhile (·.val ≠ 64))
    match keyer.aliases.get? localKey with
    | some viaAlias => some viaAlias
    | none =>
      let readable := (merchantTokens localKey).filter fun t => !hasLongDigits t && t ∉ vpaNoise
      if readable.all fun t => t.all isDigit then none
      else
        let joined := joinTokens (readable.take 5)
        some ((keyer.aliases.get? joined).getD (stripLegalSuffix joined))

/-- `keyFor(counterparty)`. -/
def keyFor : Option Counterparty → Option JsString
  | none => none
  | some counterparty =>
    if counterparty.kind = some .person ∨ counterparty.kind = some .own then none
    else
      let byName := (counterparty.name.filter fun name => trim name ≠ []).bind fun name =>
        if 64 ∈ name ∧ counterparty.vpa = none then keyer.keyForVpa name else keyer.keyForName name
      byName.or ((counterparty.vpa.filter fun vpa => trim vpa ≠ []).bind keyer.keyForVpa)

/-- `personRuleKey(counterparty)`. -/
def personRuleKey (counterparty : Option Counterparty) : Option JsString :=
  counterparty.bind fun counterparty =>
    [counterparty.vpa, counterparty.name].findSome? fun raw =>
      (raw.map (normalizeMerchantText keyer.letters)).filter (· ≠ [])

end MerchantKeyer

/-! ### The taxonomy -/

/-- `TaxonomyCategory`. -/
structure TaxonomyCategory where
  slug : JsString
  deprecatedAliases : List JsString := []

/-- `TaxonomyRegistry`: no slug or alias is used twice. -/
structure TaxonomyRegistry where
  categories : List TaxonomyCategory
  nodup : (categories.map (·.slug) ++ categories.flatMap (·.deprecatedAliases)).Nodup

namespace TaxonomyRegistry

/-- `TaxonomyRegistry.v1`. -/
def v1 : TaxonomyRegistry where
  categories :=
    [⟨js "groceries", []⟩, ⟨js "fuel", []⟩, ⟨js "dining", []⟩, ⟨js "online", []⟩, ⟨js "travel", []⟩,
      ⟨js "bills", []⟩, ⟨js "rent", []⟩, ⟨js "insurance", []⟩, ⟨js "education", []⟩, ⟨js "government", []⟩,
      ⟨js "wallet", []⟩, ⟨js "entertainment", []⟩, ⟨js "health", []⟩, ⟨js "emi", []⟩, ⟨js "other", []⟩]
  nodup := by decide +kernel

/-- `canonicalSlug(slug)`. -/
def canonicalSlug (registry : TaxonomyRegistry) (letters : Letters) (slug : Option JsString) : Option JsString :=
  slug.bind fun slug =>
    let s := letters.toLowerCase (trim slug)
    if s ∈ registry.categories.map (·.slug) then some s
    else (registry.categories.find? fun c => s ∈ c.deprecatedAliases).map (·.slug)

end TaxonomyRegistry

end PandaPay.SmsV2.Category
