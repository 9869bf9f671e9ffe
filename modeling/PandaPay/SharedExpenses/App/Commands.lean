import PandaPay.SharedExpenses.Bill
import PandaPay.SharedExpenses.Dart.Canonical
import PandaPay.Json.Reorder

/-!
# Commands, receipts and projections of the app

The values of `features/shared_expenses/data/shared_commands.dart` that the app's store keeps: a
command with its wire bytes and their hash, the receipt the server answers with, and the pages of
projections it sends. A Dart constructor that checks its arguments is a structure here that carries
the checks, together with the function that makes them.

## Main definitions

* `jsonDecode`: Dart's reader of JSON
* `SharedCommand`, `SharedCommand.make`, `SharedCommand.fromJson`
* `SharedOperationReceipt`, `SharedProjection`, `SharedChangePage`

## Main results

* `fromJson_canonicalJson`: the wire bytes of a command decode to that command
-/

namespace PandaPay.SharedExpenses.App

open Dart Json

/-- What an operation of the store can throw. -/
inductive StoreException where
  /-- `SharedLocalException(code)`. -/
  | sharedLocal (code : String)
  | format (e : FormatException)
  /-- A failed `as`. -/
  | typeError
  /-- A constraint of the database. -/
  | sqlite
  /-- `AccountRecoveryBusy`. -/
  | recoveryBusy
  deriving DecidableEq

/-- A computation that may throw. -/
abbrev Throwing (α : Type) := Except StoreException α

/-- `throw const FormatException(message)`. -/
abbrev formatError (message : String) : StoreException := .format ⟨message⟩

/-! ### Reading JSON -/

/-- The number `jsonDecode` reads: an `int` where it is integral and fits. The texts it is applied
to are canonical, so an integral number in them has no fraction and no exponent. -/
def readNumber : JsonNumber → DartNumber
  | .int z => if -2 ^ 63 ≤ z ∧ z < 2 ^ 63 then .int (BitVec.ofInt 64 z) else .double (.int z)
  | n => .double n

mutual

/-- The Dart value a JSON value is decoded to. -/
def ofJson : Json → DartValue
  | .null => .null
  | .bool b => .bool b
  | .num n => .num (readNumber n)
  | .str s => .str s
  | .arr items => .list (ofItems items)
  | .obj fields => .map (ofFields fields)

/-- The elements of a decoded list. -/
def ofItems : List Json → List DartValue
  | [] => []
  | item :: items => ofJson item :: ofItems items

/-- The entries of a decoded map. -/
def ofFields : List (JsString × Json) → List (JsString × DartValue)
  | [] => []
  | (key, value) :: fields => (key, ofJson value) :: ofFields fields

end

/-- `jsonDecode`. -/
def jsonDecode (text : JsString) : Throwing DartValue :=
  match parse text with
  | some value => .ok (ofJson value)
  | none => .error (formatError "Unexpected character")

/-- `map[key]`. -/
def lookup (entries : List (JsString × DartValue)) (key : String) : Option DartValue :=
  InsertionMap.lookup (js key) entries

/-- `value as String`. -/
def asString : Option DartValue → Throwing JsString
  | some (.str s) => .ok s
  | _ => .error .typeError

/-- `value == 1`, which an `int` and a `double` can both be. -/
def isOne : Option DartValue → Bool
  | some (.num (.int n)) => n = 1
  | some (.num (.double n)) => n = .int 1
  | _ => false

/-- `value is Map`. -/
def isMap : DartValue → Bool
  | .map _ => true
  | _ => false

/-- `sharedCanonicalJson`, among the other operations that throw. -/
def canonicalText (value : DartValue) (maxBytes : ℕ := 65536) : Throwing JsString :=
  (sharedCanonicalJson value maxBytes).mapError .format

/-- A `Map<String, Object?>`: no map in it has a key twice. -/
structure DartMap where
  entries : List (JsString × DartValue)
  distinct : (DartValue.map entries).toJson.Distinct

/-! ### Commands -/

/-- `sharedCommandKinds`. -/
def sharedCommandKinds : List JsString :=
  ["context.create", "member.invite", "membership.respond", "expense.propose", "expense.respond",
    "settlement.report", "settlement.respond"].map js

/-- `sharedUuid`. -/
def sharedUuid : Option DartValue → Bool
  | some (.str s) => isUuid s
  | _ => false

/-- Whether a key names an amount of money. -/
def isMoneyKey (key : JsString) : Bool :=
  [js "Minor", js "_minor", js "Paise"].any (·.isSuffixOf key)

/-- Whether a value is an exact amount in minor units. -/
def isMoneyString : DartValue → Bool
  | .str s => s.length ≤ 16 && isUnsigned s && unsignedValue s ≤ 9007199254740991
  | _ => false

mutual

/-- `_moneyStrings`: every amount of money is an exact minor-unit string. -/
def moneyStrings : DartValue → Throwing Unit
  | .map entries => moneyEntries entries
  | .list items => moneyItems items
  | _ => pure ()

/-- The loop of `_moneyStrings` over a list. -/
def moneyItems : List DartValue → Throwing Unit
  | [] => pure ()
  | item :: items => do
    moneyStrings item
    moneyItems items

/-- The loop of `_moneyStrings` over the entries of a map. -/
def moneyEntries : List (JsString × DartValue) → Throwing Unit
  | [] => pure ()
  | (key, item) :: entries => do
    failIf (isMoneyKey key = true ∧ isMoneyString item = false)
      (formatError "Money requires exact minor-unit strings")
    moneyStrings item
    moneyEntries entries

end

/-- A command: its identity, its wire bytes and their hash. -/
structure SharedCommand where
  operationId : JsString
  kind : JsString
  contextId : JsString
  canonicalJson : JsString
  requestHash : JsString
  deriving DecidableEq

/-- The map a command is sent as. -/
def envelope (operationId kind : JsString) (payload : List (JsString × DartValue)) : DartValue :=
  .map [(js "schemaVersion", .num (.int 1)), (js "operationId", .str operationId),
    (js "kind", .str kind), (js "payload", .map payload)]

/-- `_moneyStrings(jsonDecode(wire)['payload'])`. -/
def wireMoneyStrings (wire : JsString) : Throwing Unit := do
  match ← jsonDecode wire with
  | .map decoded => moneyStrings ((lookup decoded "payload").getD .null)
  | _ => .error .typeError

section Sha256

-- the hex digest of the UTF-8 bytes of a text, `sha256.convert(utf8.encode(text)).toString()`
variable (sha256 : JsString → JsString)

/-- The factory `SharedCommand`. -/
def SharedCommand.make (operationId kind : JsString) (payload : List (JsString × DartValue)) :
    Throwing SharedCommand := do
  failIf (isUuid operationId = false ∨ kind ∉ sharedCommandKinds ∨
    sharedUuid (lookup payload "contextId") = false) (formatError "Invalid shared command identity")
  let wire ← canonicalText (envelope operationId kind payload)
  wireMoneyStrings wire
  let contextId ← asString (lookup payload "contextId")
  return ⟨operationId, kind, contextId, wire, sha256 wire⟩

/-- `SharedCommand.fromJson`. -/
def SharedCommand.fromJson : DartValue → Throwing SharedCommand
  | .map entries => do
    failIf (entries.length ≠ 4 ∨ isOne (lookup entries "schemaVersion") = false ∨
      (lookup entries "operationId").isNone ∨ (lookup entries "kind").isNone)
      (formatError "Invalid shared command envelope")
    match lookup entries "payload" with
    | some (.map payload) => do
      let operationId ← asString (lookup entries "operationId")
      let kind ← asString (lookup entries "kind")
      SharedCommand.make sha256 operationId kind payload
    | _ => .error (formatError "Invalid shared command envelope")
  | _ => .error (formatError "Invalid shared command envelope")

/-- A command made from a map: there are no others, the constructor is private. -/
def SharedCommand.Built (command : SharedCommand) : Prop :=
  ∃ payload : DartMap,
    SharedCommand.make sha256 command.operationId command.kind payload.entries = .ok command

end Sha256

/-! ### Decoding what was encoded -/

theorem ofItems_eq_map (items : List Json) : ofItems items = items.map ofJson := by
  induction items with
  | nil => rfl
  | cons item items ih => rw [ofItems, ih, List.map_cons]

theorem ofFields_eq_map (fields : List (JsString × Json)) :
    ofFields fields = fields.map fun f => (f.1, ofJson f.2) := by
  induction fields with
  | nil => rfl
  | cons f fields ih => rw [ofFields, ih, List.map_cons]

/-- The value with the keys of every map in order. -/
def sorted : ℕ → DartValue → DartValue
  | 0, value => value
  | levels + 1, .list items => .list (items.map (sorted levels))
  | levels + 1, .map entries => .map ((sortFields entries).map fun e => (e.1, sorted levels e.2))
  | _ + 1, value => value

theorem readNumber_toJson {n : DartNumber} (h : isSafeInt n = true) : readNumber n.toJson = n := by
  cases n with
  | int n =>
    have hlower := BitVec.le_toInt n
    have hupper := BitVec.toInt_lt (x := n)
    rw [DartNumber.toJson, readNumber, if_pos ⟨by simpa using hlower, by simpa using hupper⟩,
      BitVec.ofInt_toInt]
  | double n => exact Bool.noConfusion h

/-- What the printer accepts decodes to itself, with the keys in order. -/
theorem ofJson_sortKeys {maxBytes levels : ℕ} {value : DartValue}
    (h : Dart.Visible maxBytes levels value) :
    ofJson (sortKeys levels value.toJson) = sorted levels value := by
  induction levels generalizing value with
  | zero => exact h.1.elim
  | succ levels ih =>
    obtain ⟨hshape, hnumbers⟩ := h
    cases value with
    | num n =>
      rw [DartValue.toJson, sortKeys, ofJson, readNumber_toJson (hnumbers n (by
        simp [DartValue.numbers])), sorted]
      all_goals simp
    | list items =>
      simp only [DartValue.toJson, DartValue.itemsToJson_eq_map] at hshape ⊢
      simp only [sortKeys, ofJson, ofItems_eq_map, sorted, List.map_map, DartValue.list.injEq]
      apply List.map_congr_left
      intro item hitem
      refine ih ⟨hshape.2 _ (List.mem_map_of_mem hitem), fun n hn => hnumbers n ?_⟩
      exact List.mem_flatMap.mpr ⟨item, hitem, hn⟩
    | map entries =>
      simp only [DartValue.toJson, DartValue.entriesToJson_eq_map] at hshape ⊢
      simp only [sortKeys, ofJson, ofFields_eq_map, sorted, sortFields_map, List.map_map,
        DartValue.map.injEq]
      apply List.map_congr_left
      intro e he
      have hmem : e ∈ entries := (perm_sortFields entries).subset he
      have hvalue := ih ⟨(hshape.2 _ (List.mem_map_of_mem hmem)).2, fun n hn => hnumbers n
        (List.mem_flatMap.mpr ⟨e, hmem, hn⟩)⟩
      simp only [Function.comp_apply, hvalue]
    | _ => rfl

/-- The printer does not see the order of the keys. -/
theorem visit_sorted (maxBytes levels : ℕ) (value : DartValue) :
    Dart.visit maxBytes levels (sorted levels value) = Dart.visit maxBytes levels value := by
  induction levels generalizing value with
  | zero => rfl
  | succ levels ih =>
    cases value with
    | list items =>
      funext out
      simp only [sorted, Dart.visit, List.length_map, List.zipIdx_map, List.foldlM_map, Prod.map, ih,
        id_eq]
    | map entries =>
      have hsort : sortFields ((sortFields entries).map fun e => (e.1, sorted levels e.2)) =
          (sortFields entries).map fun e => (e.1, sorted levels e.2) := by
        rw [sortFields_map, sortFields_sortFields]
      funext out
      simp only [sorted, Dart.visit, hsort, List.length_map, List.zipIdx_map, List.foldlM_map, Prod.map,
        ih, id_eq, (perm_sortFields entries).length_eq, List.any_map, Function.comp_def,
        (perm_sortFields entries).any_eq]
    | _ => rfl

/-- The fields of an envelope in key order. -/
theorem sortFields_envelope {V : Type} (version operationId kind payload : V) :
    sortFields [(js "schemaVersion", version), (js "operationId", operationId), (js "kind", kind),
      (js "payload", payload)] = [(js "kind", kind), (js "operationId", operationId),
        (js "payload", payload), (js "schemaVersion", version)] := by
  have h₁ : js "kind" ≤ js "payload" := by decide
  have h₂ : js "operationId" ≤ js "payload" := by decide
  have h₃ : js "payload" ≤ js "schemaVersion" := by decide
  have h₅ : ¬ js "operationId" ≤ js "kind" := by decide
  have h₆ : ¬ js "schemaVersion" ≤ js "kind" := by decide
  have h₇ : ¬ js "schemaVersion" ≤ js "operationId" := by decide
  have h₈ : ¬ js "schemaVersion" ≤ js "payload" := by decide
  simp [sortFields, h₁, h₂, h₅, h₆, h₇, h₈]

section Decoded

variable {sha256 : JsString → JsString} {operationId kind : JsString}
  {payload : List (JsString × DartValue)} {command : SharedCommand}

theorem make_eq_ok : SharedCommand.make sha256 operationId kind payload = .ok command ↔
    (isUuid operationId = true ∧ kind ∈ sharedCommandKinds ∧
      sharedUuid (lookup payload "contextId") = true) ∧
    ∃ wire contextId, sharedCanonicalJson (envelope operationId kind payload) = .ok wire ∧
      wireMoneyStrings wire = .ok () ∧ lookup payload "contextId" = some (.str contextId) ∧
      command = ⟨operationId, kind, contextId, wire, sha256 wire⟩ := by
  have htext : ∀ wire, canonicalText (envelope operationId kind payload) = .ok wire ↔
      sharedCanonicalJson (envelope operationId kind payload) = .ok wire := fun wire => by
    rw [canonicalText]
    cases sharedCanonicalJson (envelope operationId kind payload) <;> simp [Except.mapError]
  have hstring : ∀ contextId, asString (lookup payload "contextId") = .ok contextId ↔
      lookup payload "contextId" = some (.str contextId) := fun contextId => by
    rcases lookup payload "contextId" with - | (_ | _ | _ | s | _ | _) <;> simp [asString]
  rw [SharedCommand.make, failIf_bind_eq_ok, not_or, not_or, Bool.not_eq_false, Bool.not_eq_false,
    not_not]
  simp only [bind_eq_ok, htext, hstring, pure_eq_ok, Except.ok.injEq]
  apply and_congr_right
  intro _
  constructor
  · rintro ⟨wire, hwire, ⟨⟩, hmoney, contextId, hcontext, rfl⟩
    exact ⟨wire, contextId, hwire, hmoney, hcontext, rfl⟩
  · rintro ⟨wire, contextId, hwire, hmoney, hcontext, rfl⟩
    exact ⟨wire, hwire, (), hmoney, contextId, hcontext, rfl⟩

theorem toJson_of_isSafeInt {n : DartNumber} (h : isSafeInt n = true) : ∃ z, n.toJson = .int z := by
  cases n with
  | int n => exact ⟨n.toInt, rfl⟩
  | double n => exact Bool.noConfusion h

/-- A value whose objects have distinct keys is plain when its shape and its numbers are. -/
theorem plain_of_shape {maxBytes levels : ℕ} {value : Json} (hd : Distinct value)
    (hshape : Shape maxBytes levels value) (hnumbers : ∀ n ∈ numbers levels value, ∃ z, n = .int z) :
    Plain levels value := by
  induction levels generalizing value with
  | zero => exact hshape
  | succ levels ih =>
    cases hd with
    | num n => exact hnumbers n (List.mem_singleton_self n)
    | arr items hitems =>
      intro item hitem
      refine ih (hitems item hitem) (hshape.2 item hitem) fun n hn => hnumbers n ?_
      exact List.mem_flatMap.mpr ⟨item, hitem, hn⟩
    | obj fields hnodup hfields =>
      refine ⟨hnodup, fun f hf => ih (hfields f hf) (hshape.2 f hf).2 fun n hn => hnumbers n ?_⟩
      exact List.mem_flatMap.mpr ⟨f, hf, hn⟩
    | _ => trivial

/-- Printing does not see the order of the keys inside a payload. -/
theorem sharedCanonicalJson_envelope_sorted (operationId kind : JsString)
    {payload entries : List (JsString × DartValue)}
    (h : sorted 16 (.map payload) = .map entries) :
    sharedCanonicalJson (envelope operationId kind entries) =
      sharedCanonicalJson (envelope operationId kind payload) := by
  have hvisit : Dart.visit 65536 16 (.map entries) = Dart.visit 65536 16 (.map payload) := by
    rw [← h, visit_sorted]
  rw [sharedCanonicalJson, sharedCanonicalJson, envelope, envelope, Dart.visit, Dart.visit]
  dsimp only
  rw [sortFields_envelope, sortFields_envelope]
  simp only [List.zipIdx, List.foldlM_cons, List.foldlM_nil, hvisit]
  rfl

theorem lookup_sorted (levels : ℕ) {payload : List (JsString × DartValue)}
    (hd : (payload.map Prod.fst).Nodup) (key : String) {s : JsString}
    (h : lookup payload key = some (.str s)) :
    lookup ((sortFields payload).map fun e => (e.1, sorted levels e.2)) key = some (.str s) := by
  have hmem : (js key, DartValue.str s) ∈ payload := InsertionMap.mem_of_lookup_eq_some h
  apply InsertionMap.lookup_eq_some_of_mem
  · rw [List.map_map]
    exact ((perm_sortFields payload).map Prod.fst).nodup_iff.mpr hd
  · have hstr : sorted levels (.str s) = .str s := by cases levels <;> rfl
    rw [← hstr]
    exact List.mem_map_of_mem ((perm_sortFields payload).symm.subset hmem)

theorem distinct_envelope (operationId kind : JsString) {payload : List (JsString × DartValue)}
    (h : (DartValue.map payload).toJson.Distinct) :
    (envelope operationId kind payload).toJson.Distinct := by
  simp only [envelope, DartValue.toJson, DartValue.entriesToJson] at h ⊢
  refine .obj _ ?_ ?_
  · simp
  · simp only [List.forall_mem_cons, List.not_mem_nil, false_implies, implies_true, and_true]
    exact ⟨.num _, .str _, .str _, h⟩

/-- The wire bytes of a command decode to that command. -/
theorem fromJson_canonicalJson (h : command.Built sha256) :
    (jsonDecode command.canonicalJson >>= SharedCommand.fromJson sha256) = .ok command := by
  obtain ⟨⟨payload, hd⟩, hmake⟩ := h
  dsimp only at hmake
  obtain ⟨hids, wire, contextId, hwire, hmoney, hcontext, hcommand⟩ := make_eq_ok.mp hmake
  obtain ⟨⟨⟨hshape, -⟩, hnumbers⟩, htext⟩ := sharedCanonicalJson_eq_ok.mp hwire
  have hplain : Plain 17 (envelope command.operationId command.kind payload).toJson := by
    refine plain_of_shape (distinct_envelope _ _ hd) hshape fun n hn => ?_
    rw [DartValue.numbers_toJson] at hn
    obtain ⟨m, hm, rfl⟩ := List.mem_map.mp hn
    exact toJson_of_isSafeInt (hnumbers m hm)
  have hdecode : jsonDecode wire = .ok (sorted 17 (envelope command.operationId command.kind
      payload)) := by
    rw [jsonDecode, htext, parse_textOf hplain]
    exact congrArg Except.ok (ofJson_sortKeys ⟨hshape, hnumbers⟩)
  set entries := (sortFields payload).map fun e => (e.1, sorted 15 e.2) with hentries
  have hsorted : sorted 17 (envelope command.operationId command.kind payload) =
      .map [(js "kind", .str command.kind), (js "operationId", .str command.operationId),
        (js "payload", .map entries), (js "schemaVersion", .num (.int 1))] := by
    rw [envelope, sorted, sortFields_envelope]
    rfl
  have hkeys : (payload.map Prod.fst).Nodup := by
    rw [DartValue.toJson, DartValue.entriesToJson_eq_map] at hd
    cases hd with
    | obj _ hnodup _ => simpa [Function.comp_def] using hnodup
  have hcontext' := lookup_sorted 15 hkeys "contextId" hcontext
  have hmake' : SharedCommand.make sha256 command.operationId command.kind entries = .ok command := by
    rw [make_eq_ok]
    refine ⟨⟨hids.1, hids.2.1, ?_⟩, wire, contextId, ?_, hmoney, hcontext', hcommand⟩
    · rw [hcontext']
      rw [hcontext] at hids
      exact hids.2.2
    · rw [@sharedCanonicalJson_envelope_sorted _ _ payload _ rfl]
      exact hwire
  have hfields : SharedCommand.fromJson sha256 (.map [(js "kind", .str command.kind),
      (js "operationId", .str command.operationId), (js "payload", .map entries),
      (js "schemaVersion", .num (.int 1))]) =
        SharedCommand.make sha256 command.operationId command.kind entries := by
    simp [SharedCommand.fromJson, lookup, InsertionMap.lookup, isOne, asString, failIf]
  have hjson : command.canonicalJson = wire := by rw [hcommand]
  rw [hjson, hdecode, hsorted]
  exact hfields.trans hmake'

end Decoded

/-! ### Receipts and projections -/

/-- The grammar `^[0-9a-f]{64}$`. -/
def isSha256 (s : JsString) : Bool := s.length = 64 && s.all isHexDigit

/-- What the server answers a command with. -/
structure SharedOperationReceipt where
  operationId : JsString
  kind : JsString
  requestHash : JsString
  contextId : JsString
  /-- The canonical text of the result. -/
  resultJson : JsString
  deriving DecidableEq

/-- The constructor `SharedOperationReceipt`. -/
def SharedOperationReceipt.make (operationId kind requestHash contextId : JsString)
    (result : DartValue) : Throwing SharedOperationReceipt := do
  let resultJson ← canonicalText result 262144
  failIf (isUuid operationId = false ∨ isUuid contextId = false ∨ kind ∉ sharedCommandKinds ∨
    isSha256 requestHash = false) (formatError "Invalid operation receipt")
  return ⟨operationId, kind, requestHash, contextId, resultJson⟩

/-- `SharedOperationReceipt.toJson`. -/
def SharedOperationReceipt.toJson (receipt : SharedOperationReceipt) : Throwing DartValue := do
  let result ← jsonDecode receipt.resultJson
  return .map [(js "operationId", .str receipt.operationId), (js "kind", .str receipt.kind),
    (js "requestHash", .str receipt.requestHash), (js "contextId", .str receipt.contextId),
    (js "result", result), (js "state", .str (js "committed"))]

/-- `sharedProjectionEntities`. -/
def sharedProjectionEntities : List JsString :=
  ["contexts", "expenses", "members", "balances", "activity", "totals", "source_aliases",
    "personal_cost"].map js

/-- One record of a change page. -/
structure SharedProjection where
  entity : JsString
  id : JsString
  contextId : JsString
  revision : ℤ
  deleted : Bool
  /-- The canonical text of the payload. -/
  canonicalJson : JsString
  deriving DecidableEq

/-- The constructor `SharedProjection`. -/
def SharedProjection.make (entity id contextId : JsString) (revision : ℤ) (payload : DartValue)
    (deleted : Bool := false) : Throwing SharedProjection := do
  let canonicalJson ← canonicalText payload 262144
  failIf (entity ∉ sharedProjectionEntities ∨ isUuid contextId = false ∨ id = [] ∨
    id.length > 128 ∨ revision < 0 ∨ revision > 9007199254740991 ∨ isMap payload = false)
    (formatError "Invalid shared projection")
  return ⟨entity, id, contextId, revision, deleted, canonicalJson⟩

/-- A page of the change feed. -/
structure SharedChangePage where
  records : List SharedProjection
  nextCursor : Option JsString
  hasMore : Bool
  revokedContextIds : List JsString
  grantedContextIds : List JsString
  deriving DecidableEq

/-- Whether a list of context ids can stand in a page. -/
def accessIds (ids : List JsString) : Bool := ids.length ≤ 100 && ids.Nodup && ids.all isUuid

/-- The constructor `SharedChangePage`. -/
def SharedChangePage.make (records : List SharedProjection) (nextCursor : Option JsString)
    (hasMore : Bool) (revokedContextIds grantedContextIds : List JsString) :
    Throwing SharedChangePage := do
  failIf (records.length > 100 ∨ nextCursor.any (fun c => c = [] ∨ c.length > 2048) ∨
    hasMore = true ∧ nextCursor = none) (formatError "Invalid shared change page")
  failIf (accessIds revokedContextIds = false ∨ accessIds grantedContextIds = false)
    (formatError "Invalid context access change")
  failIf (∃ id ∈ revokedContextIds, id ∈ grantedContextIds)
    (formatError "Conflicting context access change")
  return ⟨records, nextCursor, hasMore, revokedContextIds, grantedContextIds⟩

end PandaPay.SharedExpenses.App
