import PandaPay.Json.Stringify

/-!
# The contract of portable backups

The sections of a backup and the canonical form of its records, which the export and the restore
compute digests of.

Not modelled: the values `Date`, `Buffer` and `bigint` of `canonicalize`, as the records are read from
`jsonb` columns and from JSON texts.

## Main definitions

* `portableSections`: `PORTABLE_SECTIONS`
* `excludedFields`, `isDecimalField`: `EXCLUDED_FIELDS` and `DECIMAL_FIELD`
* `canonicalize`, `canonicalJson`: the canonical form of a value and its text
* `Tables`: the live tables, whose rows are as `to_jsonb` shows them
* `property?`, `columnIs`, `columnText`: a column of a row
* `ownsTransaction`: the transaction of a split is one of a profile
* `portableRecord`: a row without the excluded fields
-/

namespace PandaPay.PortableBackup

/-! ### Sections -/

/-- Which rows of a table belong to a profile. -/
inductive SectionFilter where
  /-- `p.id = $1`. -/
  | ownId
  /-- `t.profile_id = $1`. -/
  | profileId
  /-- `t.profile_id = $1 AND t.deleted_at IS NULL`. -/
  | profileIdNotDeleted
  /-- The transaction of the row is one of the profile. -/
  | ownerTransaction
  deriving DecidableEq

/-- A section of a backup. -/
structure PortableSection where
  name : String
  table : String
  filter : SectionFilter
  orderBy : List String
  cursor : Option String
  optionalForLegacy : Bool

/-- A section whose rows have the column `profile_id` and are read in the order of `column`. -/
def sectionBy (column name : String) : PortableSection where
  name := name
  table := name
  filter := .profileId
  orderBy := [column]
  cursor := some column
  optionalForLegacy := false

/-- `PORTABLE_SECTIONS`. -/
def portableSections : List PortableSection := [
  { sectionBy "id" "profile" with table := "profiles", filter := .ownId },
  { sectionBy "profile_id" "settings" with table := "user_settings" },
  sectionBy "id" "user_categories",
  sectionBy "id" "user_cards",
  sectionBy "id" "card_overrides",
  sectionBy "id" "transactions",
  { sectionBy "id" "user_commitments" with filter := .profileIdNotDeleted },
  sectionBy "id" "user_merchant_category_rules",
  { sectionBy "id" "transaction_splits" with filter := .ownerTransaction },
  sectionBy "id" "transaction_observations",
  sectionBy "id" "self_transfer_rules",
  sectionBy "id" "transaction_tags",
  { sectionBy "id" "transaction_tag_links" with
    orderBy := ["transaction_id", "tag_id"], cursor := none },
  sectionBy "id" "points_ledger",
  sectionBy "id" "cap_states",
  sectionBy "id" "milestone_states",
  sectionBy "id" "fee_waiver_states",
  sectionBy "id" "lounge_usage",
  sectionBy "id" "needs_review_items",
  sectionBy "id" "duplicate_candidates",
  sectionBy "id" "monthly_reports",
  sectionBy "id" "statement_imports",
  sectionBy "id" "sms_import_batches",
  sectionBy "id" "budgets",
  sectionBy "id" "budget_periods",
  sectionBy "id" "recurring_series",
  sectionBy "id" "sms_sources",
  sectionBy "id" "sms_source_facts",
  sectionBy "id" "fact_overrides",
  { sectionBy "id" "foreign_payments" with optionalForLegacy := true },
  { sectionBy "source_key" "foreign_payment_sources" with optionalForLegacy := true }]

/-- `SECTION_BY_NAME.get(name)`. -/
def sectionByName (name : String) : Option PortableSection :=
  portableSections.find? fun s => s.name = name

/-- No two sections have one name. -/
theorem nodup_sectionNames : (portableSections.map PortableSection.name).Nodup := by decide

/-- `EXCLUDED_FIELDS`. -/
def excludedFields : List String :=
  ["access_token", "refresh_token", "push_token", "device_id", "os_version", "biometric_state",
    "sms_provider_cursor", "sync_cursor", "private_key"]

/-- `EXCLUDED_FIELDS.includes(key)`. -/
def isExcluded (key : JsString) : Bool := excludedFields.any fun f => js f = key

/-! ### Decimals -/

/-- The words a `DECIMAL_FIELD` ends with. -/
def decimalWords : List String :=
  ["amount", "balance", "cap", "cost", "delta", "fee", "limit", "point", "points", "rate", "spend",
    "value", "paise", "threshold", "quota", "price", "reward"]

/-- A code unit with an ASCII letter in lower case. -/
def lowerUnit (c : CodeUnit) : CodeUnit :=
  if 65 ≤ c.val ∧ c.val ≤ 90 then Fin.ofNat _ (c.val + 32) else c

/-- The name is a word or ends with one, after an underscore. -/
def endsWithWord (name word : JsString) : Bool :=
  name = word || (js "_" ++ word).isSuffixOf name

/-- `DECIMAL_FIELD.test(name)`. -/
def isDecimalField (name : JsString) : Bool :=
  decimalWords.any fun word =>
    endsWithWord (name.map lowerUnit) (js word) ||
      endsWithWord (name.map lowerUnit) (js word ++ js "_inr")

/-- `text.replace(/0+$/, '').replace(/\.$/, '')`. -/
def stripFraction (text : JsString) : JsString :=
  let stripped := JsonNumber.trimZeros text
  if stripped.getLast? = some 46 then stripped.dropLast else stripped

/-- `decimalString` of a number. -/
def numberString (n : JsonNumber) : JsString :=
  match n with
  | .fraction _ _ =>
    if n.toText.any fun c => c.val = 101 then stripFraction (n.toFixed 12) else n.toText
  | _ => n.toText

/-- `decimalString(value)`. -/
def decimalString : Json → Json
  | .num n => .str (numberString n)
  | value => value

/-! ### The canonical form -/

/-- An own field that is left out of a canonical object: an assignment to `__proto__` adds none. -/
def isDropped (key : JsString) : Bool := isExcluded key || key = js "__proto__"

/-- The object that has these fields added in the order of their keys. -/
def canonicalObject (fields : List (JsString × Json)) : Json :=
  .obj (Json.ownOrder ((Json.sortFields fields).filter fun f => !isDropped f.1))

mutual

/-- `canonicalize(value, fieldName)`. -/
def canonicalize (fieldName : JsString) : Json → Json
  | .null => .null
  | .bool b => .bool b
  | .num n => if isDecimalField fieldName then decimalString (.num n) else .num n
  | .str s => .str s
  | .arr items =>
    if isDecimalField fieldName then .arr items else .arr (canonicalizeItems fieldName items)
  | .obj fields =>
    if isDecimalField fieldName then .obj fields else canonicalObject (canonicalizeFields fields)

/-- The canonical elements of an array. -/
def canonicalizeItems (fieldName : JsString) : List Json → List Json
  | [] => []
  | item :: items => canonicalize fieldName item :: canonicalizeItems fieldName items

/-- The fields of an object with their canonical values. -/
def canonicalizeFields : List (JsString × Json) → List (JsString × Json)
  | [] => []
  | field :: fields => (field.1, canonicalize field.1 field.2) :: canonicalizeFields fields

end

/-- `canonicalJson(value)`. -/
def canonicalJson (value : Json) : JsString := (canonicalize [] value).stringify

theorem canonicalizeItems_eq (fieldName : JsString) (items : List Json) :
    canonicalizeItems fieldName items = items.map (canonicalize fieldName) := by
  induction items with
  | nil => rfl
  | cons item items ih => rw [canonicalizeItems, ih, List.map_cons]

theorem canonicalizeFields_eq (fields : List (JsString × Json)) :
    canonicalizeFields fields = fields.map fun f => (f.1, canonicalize f.1 f.2) := by
  induction fields with
  | nil => rfl
  | cons field fields ih => rw [canonicalizeFields, ih, List.map_cons]

/-! ### Rows of the live tables -/

/-- The live tables. -/
abbrev Tables := String → List Json

/-- The value of a property, if it is not `undefined`. -/
def property? (value : Json) (key : String) : Option Json :=
  match value with
  | .obj fields => Json.fieldOf (js key) fields
  | _ => none

/-- A column has a text. -/
def columnIs (row : Json) (column : String) (text : JsString) : Bool :=
  (property? row column).any (·.isStr text)

/-- The text of a column. -/
def columnText (row : Json) (column : String) : JsString :=
  match property? row column with
  | some (.str text) => text
  | _ => []

/-- The transaction of a split is one of the profile. -/
def ownsTransaction (tables : Tables) (profileId : JsString) (split : Json) : Bool :=
  (tables "transactions").any fun t =>
    columnIs t "profile_id" profileId &&
      (property? t "id").any fun id =>
        match id with
        | .str id => columnIs split "transaction_id" id
        | _ => false

/-- `to_jsonb(t) - ARRAY[EXCLUDED_FIELDS]`. -/
def portableRecord : Json → Json
  | .obj fields => .obj (fields.filter fun f => !isExcluded f.1)
  | row => row

end PandaPay.PortableBackup
