import PandaPay.Library.LastWriter
import PandaPay.Sync.ApplyChange

/-!
# Last write wins, field by field

For each field of a row, the clock in the newest change of the log and the value in the row are a
register of the last writer, and an applied change is a write to it.

## Main definitions

* `RowKey`: a row of a profile
* `Db.register`: the register of a field
* `offerOf`: what a change writes to a field
* `Db.Clean`: the condition on a call under which it is such a write

## Main results

* `mergeFields_eq_ok`, `populateAll_eq_ok`: which fields win, and what the row becomes
* `register_apply`: a call is a write to each register
-/

namespace PandaPay.Sync

variable {J V : Type}

/-- A row that is synced. -/
structure RowKey where
  profile : Uuid
  entity : Entity
  entityId : Uuid
  deriving DecidableEq

/-! ### What wins -/

section Merge

variable {pg : Conversions J V} [DecidableEq J] {change : Change J} {clocks : InsertionMap String ℤ}
  {row : Row V} {field : String}

/-- The field wins: the change has it, under a clock that is not less than the present one. -/
structure Won.Valid (change : Change J) (clocks : InsertionMap String ℤ) (won : Won J) : Prop where
  value : change.payload.get? won.field = some won.value
  clock : clockOf change.fieldClocks won.field = .ok won.clock
  newer : clockIn clocks won.field ≤ won.clock

/-- A field that the change has wins, or has a clock less than the present one. -/
theorem mergeField_eq_ok {won : Option (Won J)} {conflict : Option (ConflictRow J)}
    (h : mergeField pg change clocks row field = .ok (won, conflict)) :
    (∀ w, won = some w → w.field = field ∧ w.Valid change clocks) ∧
      ∀ value, change.payload.get? field = some value → ∃ t, clockOf change.fieldClocks field = .ok t ∧
        (t < clockIn clocks field ∨ won = some ⟨field, value, t⟩) := by
  unfold mergeField at h
  split at h
  · rename_i hnone
    cases h
    refine ⟨nofun, ?_⟩
    intro value hvalue
    rw [hnone] at hvalue
    cases hvalue
  · rename_i value hvalue
    rw [bind_eq_ok] at h
    obtain ⟨t, ht, h⟩ := h
    dsimp only at h
    have hwins : clockIn clocks field ≤ t → won = some ⟨field, value, t⟩ →
        (∀ w, won = some w → w.field = field ∧ w.Valid change clocks) ∧
          ∀ value, change.payload.get? field = some value →
            ∃ t, clockOf change.fieldClocks field = .ok t ∧
              (t < clockIn clocks field ∨ won = some ⟨field, value, t⟩) := by
      rintro hle rfl
      refine ⟨?_, ?_⟩
      · rintro w hw
        cases hw
        exact ⟨rfl, hvalue, ht, hle⟩
      · intro value' hvalue'
        rw [hvalue] at hvalue'
        cases hvalue'
        exact ⟨t, ht, .inr rfl⟩
    split at h
    · rename_i hlt
      cases h
      refine ⟨nofun, ?_⟩
      intro value' hvalue'
      exact ⟨t, ht, .inl hlt⟩
    · rename_i hle
      rw [not_lt] at hle
      rw [bind_eq_ok] at h
      obtain ⟨_, -, h⟩ := h
      split at h
      · cases h
        exact hwins hle rfl
      · cases h
        exact hwins hle rfl

/-- Each field is won at most once, and all that may win do. -/
theorem mergeFields_eq_ok {fields : List String} {wons : List (Won J)}
    {conflicts : List (ConflictRow J)} (hnodup : fields.Nodup)
    (h : mergeFields pg change clocks row fields = .ok (wons, conflicts)) :
    (wons.map Won.field).Nodup ∧ (∀ w ∈ wons, w.field ∈ fields ∧ w.Valid change clocks) ∧
      ∀ f ∈ fields, ∀ value, change.payload.get? f = some value →
        ∃ t, clockOf change.fieldClocks f = .ok t ∧
          (t < clockIn clocks f ∨ ⟨f, value, t⟩ ∈ wons) := by
  induction fields generalizing wons conflicts with
  | nil =>
    cases h
    exact ⟨List.nodup_nil, fun _ hw => absurd hw List.not_mem_nil,
      fun _ hf => absurd hf List.not_mem_nil⟩
  | cons field fields ih =>
    rw [mergeFields, bind_eq_ok] at h
    obtain ⟨⟨won, conflict⟩, hwon, h⟩ := h
    dsimp only at h
    rw [bind_eq_ok] at h
    obtain ⟨⟨rest, others⟩, hrest, h⟩ := h
    cases h
    obtain ⟨hfield, hnodup⟩ := List.nodup_cons.mp hnodup
    obtain ⟨hfirst, hall⟩ := mergeField_eq_ok hwon
    obtain ⟨hrestNodup, hrestValid, hrestAll⟩ := ih hnodup hrest
    refine ⟨?_, ?_, ?_⟩
    · cases won with
      | none => exact hrestNodup
      | some w =>
        refine List.nodup_cons.mpr ⟨?_, hrestNodup⟩
        rw [(hfirst w rfl).1]
        intro hmem
        obtain ⟨w', hw', heq⟩ := List.mem_map.mp hmem
        exact hfield (heq ▸ (hrestValid w' hw').1)
    · intro w hw
      rcases List.mem_append.mp hw with hw | hw
      · obtain ⟨heq, hvalid⟩ := hfirst w (Option.mem_toList.mp hw)
        exact ⟨heq ▸ List.mem_cons_self, hvalid⟩
      · exact ⟨List.mem_cons_of_mem _ (hrestValid w hw).1, (hrestValid w hw).2⟩
    · intro f hf value hvalue
      rcases List.mem_cons.mp hf with rfl | hf
      · obtain ⟨t, ht, hlt | rfl⟩ := hall value hvalue
        · exact ⟨t, ht, .inl hlt⟩
        · exact ⟨t, ht, .inr (List.mem_append_left _ (Option.mem_toList.mpr rfl))⟩
      · obtain ⟨t, ht, hlt | hmem⟩ := hrestAll f hf value hvalue
        · exact ⟨t, ht, .inl hlt⟩
        · exact ⟨t, ht, .inr (List.mem_append_right _ hmem)⟩

omit [DecidableEq J] in
/-- The fields that have won get their values, the others keep theirs. -/
theorem populateAll_eq_ok {entity : Entity} {wons : List (Won J)} {values values' : String → V}
    (hnodup : (wons.map Won.field).Nodup) (h : populateAll pg entity wons values = .ok values') :
    (∀ w ∈ wons, pg.populate entity w.field w.value = some (values' w.field)) ∧
      ∀ f, f ∉ wons.map Won.field → values' f = values f := by
  induction wons generalizing values with
  | nil =>
    cases h
    exact ⟨fun _ hw => absurd hw List.not_mem_nil, fun _ _ => rfl⟩
  | cons won wons ih =>
    rw [populateAll] at h
    split at h
    · cases h
    · rename_i v hv
      rw [List.map_cons, List.nodup_cons] at hnodup
      obtain ⟨hwon, hrest⟩ := ih hnodup.2 h
      refine ⟨?_, ?_⟩
      · intro w hw
        rcases List.mem_cons.mp hw with rfl | hw
        · rw [hrest _ hnodup.1, Function.update_self]
          exact hv
        · exact hwon w hw
      · intro f hf
        rw [List.map_cons, List.mem_cons, not_or] at hf
        rw [hrest f hf.2, Function.update_of_ne hf.1]

omit [DecidableEq J] in
/-- The fields that have won get their clocks, the others keep theirs. -/
theorem clockIn_mergeClocks {wons : List (Won J)} (hnodup : (wons.map Won.field).Nodup) :
    (∀ w ∈ wons, clockIn (mergeClocks clocks wons) w.field = w.clock) ∧
      ∀ f, f ∉ wons.map Won.field → clockIn (mergeClocks clocks wons) f = clockIn clocks f := by
  unfold mergeClocks
  induction wons generalizing clocks with
  | nil => exact ⟨fun _ hw => absurd hw List.not_mem_nil, fun _ _ => rfl⟩
  | cons won wons ih =>
    rw [List.map_cons, List.nodup_cons] at hnodup
    obtain ⟨hwon, hrest⟩ := @ih (clocks.set won.field won.clock) hnodup.2
    rw [List.foldl_cons]
    refine ⟨?_, ?_⟩
    · intro w hw
      rcases List.mem_cons.mp hw with rfl | hw
      · rw [hrest _ hnodup.1, clockIn, InsertionMap.get?_set_self, Option.getD_some]
      · exact hwon w hw
    · intro f hf
      rw [List.map_cons, List.mem_cons, not_or] at hf
      rw [hrest f hf.2, clockIn, InsertionMap.get?_set_of_ne _ _ hf.1, ← clockIn]

end Merge

namespace Db

/-! ### Registers -/

/-- The row, if it is there and belongs to the profile. -/
def rowAt (db : Db J V) (k : RowKey) : Option (Row V) :=
  (db.rows.get? (k.entity, k.entityId)).filter (·.profileId = k.profile)

/-- The clock of a field in the newest change of the row. -/
def stampAt (db : Db J V) (k : RowKey) (field : String) : ℤ :=
  clockIn (db.newestClocks k.profile k.entity.name k.entityId) field

/-- The value of a field under its clock. -/
def register (db : Db J V) (k : RowKey) (row : Row V) (field : String) : Stamped ℤ V :=
  ⟨db.stampAt k field, row.values field⟩

end Db

/-- The row a change is about. -/
def Change.key (change : Change J) : RowKey := ⟨change.profile, change.entity, change.entityId⟩

/-- The call is about the row. -/
def ChangeCall.Addresses (c : ChangeCall J) (k : RowKey) : Prop :=
  c.entity = k.entity.name ∧ c.entityId = k.entityId ∧ c.profile = some k.profile

instance (c : ChangeCall J) (k : RowKey) : Decidable (c.Addresses k) :=
  inferInstanceAs (Decidable (_ ∧ _ ∧ _))

/-- What an applied call writes to a field: the value it has for it, under its clock; and a deletion,
which archives a card, that the card is archived. -/
def offerOf (pg : Conversions J V) (k : RowKey) (c : ChangeCall J) (field : String) :
    Option (Stamped ℤ V) :=
  if c.op = .delete then
    if k.entity = .userCards ∧ field = "is_archived" then some ⟨0, pg.archived⟩ else none
  else if field ∈ k.entity.fields then do
    let payload ← c.payload
    let clocks ← c.fieldClocks
    let value ← payload.get? field
    let clock ← (clockOf clocks field).toOption
    let v ← pg.populate k.entity field value
    return ⟨clock, v⟩
  else none

section Offer

variable {pg : Conversions J V} {k : RowKey} {c : ChangeCall J} {field : String} {o : Stamped ℤ V}

theorem offerOf_eq_some (hop : c.op ≠ .delete) (h : offerOf pg k c field = some o) :
    field ∈ k.entity.fields ∧ ∃ payload clocks value, c.payload = some payload ∧
      c.fieldClocks = some clocks ∧ payload.get? field = some value ∧
        clockOf clocks field = .ok o.stamp ∧ pg.populate k.entity field value = some o.value := by
  unfold offerOf at h
  rw [if_neg hop] at h
  split at h
  · rename_i hfield
    simp only [Option.bind_eq_bind, Option.bind_eq_some_iff] at h
    obtain ⟨payload, hpayload, clocks, hclocks, value, hvalue, t, ht, v, hv, ho⟩ := h
    cases ho
    refine ⟨hfield, payload, clocks, value, hpayload, hclocks, hvalue, ?_, hv⟩
    cases hclock : clockOf clocks field with
    | error e =>
      rw [hclock] at ht
      cases ht
    | ok t' =>
      rw [hclock] at ht
      cases ht
      rfl
  · cases h

theorem offerOf_of_update (hop : c.op ≠ .delete) (hfield : field ∈ k.entity.fields)
    {payload : InsertionMap String J} {clocks : InsertionMap String Clock} {value : J} {t : ℤ} {v : V}
    (hpayload : c.payload = some payload) (hclocks : c.fieldClocks = some clocks)
    (hvalue : payload.get? field = some value) (ht : clockOf clocks field = .ok t)
    (hv : pg.populate k.entity field value = some v) : offerOf pg k c field = some ⟨t, v⟩ := by
  unfold offerOf
  rw [if_neg hop, if_pos hfield, hpayload, hclocks]
  simp [hvalue, ht, hv, Except.toOption]

end Offer

namespace Db

/-! ### The log -/

section Log

variable {db : Db J V} {change : Change J} {op : SyncOp} {payload : InsertionMap String J}
  {clocks : InsertionMap String ℤ} {clientSeq : ℤ} {k : RowKey}

theorem entity_name_inj {e e' : Entity} (h : e.name = e'.name) : e = e' := by
  have hname := Entity.ofName_name e
  rw [h, Entity.ofName_name] at hname
  exact (Option.some.inj hname).symm

/-- The newest change of its row is the one that was logged last. -/
theorem stampAt_logChange (f : String) :
    (db.logChange change op payload clocks clientSeq).stampAt change.key f = clockIn clocks f := by
  unfold stampAt newestClocks changesOf logChange Change.key
  rw [List.filter_append, List.filter_singleton, decide_eq_true ⟨rfl, rfl, rfl⟩, cond_true,
    List.getLast?_concat]
  rfl

/-- A change of another row is no change of this one. -/
theorem stampAt_logChange_of_ne (h : change.key ≠ k) (f : String) :
    (db.logChange change op payload clocks clientSeq).stampAt k f = db.stampAt k f := by
  unfold stampAt newestClocks changesOf logChange
  rw [List.filter_append, List.filter_singleton, decide_eq_false, cond_false, List.append_nil]
  rintro ⟨hprofile, hname, hid⟩
  exact h (RowKey.mk.injEq _ _ _ _ _ _ ▸ ⟨hprofile, entity_name_inj hname, hid⟩)

end Log

/-! ### Calls -/

section Call

variable [DecidableEq J] {pg : Conversions J V} {admits : Db J V → Entity → Uuid → Row V → Bool}
  {db : Db J V} {c : ChangeCall J} {change : Change J} {k : RowKey} {row : Row V}

omit [DecidableEq J] in
theorem checkCall_eq_ok (h : db.checkCall c = .ok change) :
    c.entity = change.entity.name ∧ c.entityId = change.entityId ∧ c.profile = some change.profile ∧
      c.payload = some change.payload ∧ c.fieldClocks = some change.fieldClocks := by
  unfold checkCall at h
  split at h
  · cases h
  · rename_i entity hentity
    split at h
    · rename_i profile device hprofile hdevice
      split at h
      · cases h
      · split at h
        · rename_i payload clocks hpayload hclocks
          cases h
          exact ⟨(Entity.eq_of_ofName hentity).symm, rfl, hprofile, hpayload, hclocks⟩
        · cases h
    · cases h

omit [DecidableEq J] in
/-- The call is about the row of its change. -/
theorem addresses_iff (h : db.checkCall c = .ok change) : c.Addresses k ↔ change.key = k := by
  obtain ⟨hentity, hid, hprofile, -, -⟩ := checkCall_eq_ok h
  unfold ChangeCall.Addresses
  rw [hentity, hid, hprofile, Option.some.injEq]
  constructor
  · rintro ⟨hname, hid, hprofile⟩
    rw [Change.key, hid, hprofile, entity_name_inj hname]
  · rintro rfl
    exact ⟨rfl, rfl, rfl⟩

/-- A call that does not raise is refused, or finds its row and deletes or updates it. -/
theorem syncApplyChangeV2_eq_ok {result : Db J V × Outcome}
    (h : db.syncApplyChangeV2 pg admits c = .ok result) :
    (result.1 = db ∧ result.2.applied = false ∧
      ∀ change, db.checkCall c = .ok change → db.rowOf change = none) ∨
    ∃ change row, db.checkCall c = .ok change ∧ db.rowOf change = some row ∧
      (change.entity = .transactions → c.op ≠ .delete) ∧
      (c.op = .delete ∧ result = (db.applyDelete pg change row c.clientSeq, ⟨true, 0, none⟩) ∨
        c.op ≠ .delete ∧ db.applyUpdate pg admits change row c.clientSeq = .ok result) := by
  unfold syncApplyChangeV2 at h
  split at h
  · rename_i reason hreason
    cases h
    refine .inl ⟨rfl, rfl, fun change hchange => ?_⟩
    rw [hreason] at hchange
    cases hchange
  · rename_i change hchange
    rw [failIf_bind_eq_ok, failIf_bind_eq_ok] at h
    obtain ⟨hdelete, -, h⟩ := h
    split at h
    · rename_i hrow
      cases h
      refine .inl ⟨rfl, rfl, fun change' hchange' => ?_⟩
      rw [hchange] at hchange'
      cases hchange'
      exact hrow
    · rename_i row hrow
      refine .inr ⟨change, row, hchange, hrow, fun he hop => hdelete ⟨he, hop⟩, ?_⟩
      split at h
      · rename_i hop
        cases h
        exact .inl ⟨hop, rfl⟩
      · rename_i hop
        exact .inr ⟨hop, h⟩

/-- The fields of an update that win, and the row that is written before the trigger sees it. -/
def Writes (pg : Conversions J V) (db : Db J V) (change : Change J) (row : Row V)
    (wons : List (Won J)) (written : Row V) : Prop :=
  (∃ conflicts, mergeFields pg change
    (db.newestClocks change.profile change.entity.name change.entityId) row change.entity.fields =
      .ok (wons, conflicts)) ∧
  ∃ values, populateAll pg change.entity wons row.values = .ok values ∧
    written = ⟨row.profileId, values⟩

/-- An update logs the change, with the row as the trigger leaves it where a field has won. -/
theorem applyUpdate_eq_ok {clientSeq : ℤ} {result : Db J V × Outcome}
    (h : db.applyUpdate pg admits change row clientSeq = .ok result) :
    result.2.applied = true ∧ ∃ wons written final conflicts, db.Writes pg change row wons written ∧
      (wons = [] ∧ final = row ∧ written = row ∨
        wons ≠ [] ∧ db.beforeUpdate pg change.entity wons written = .ok final) ∧
      result.1 = ({ db with
          rows := if wons = [] then db.rows else db.rows.set (change.entity, change.entityId) final
          syncConflicts := db.syncConflicts ++ conflicts }.logChange change .update change.payload
        (mergeClocks (db.newestClocks change.profile change.entity.name change.entityId) wons)
        clientSeq) := by
  unfold applyUpdate at h
  dsimp only at h
  rw [bind_eq_ok] at h
  obtain ⟨⟨wons, conflicts⟩, hmerge, h⟩ := h
  dsimp only at h
  split at h
  · rename_i hempty
    rw [List.isEmpty_iff] at hempty
    subst hempty
    cases h
    exact ⟨rfl, [], row, row, _, ⟨⟨conflicts, hmerge⟩, row.values, rfl, rfl⟩, .inl ⟨rfl, rfl, rfl⟩,
      rfl⟩
  · rename_i hnonempty
    rw [List.isEmpty_iff] at hnonempty
    rw [bind_eq_ok] at h
    obtain ⟨final, hfinal, h⟩ := h
    cases h
    unfold updatedRow at hfinal
    rw [bind_eq_ok] at hfinal
    obtain ⟨_, -, hfinal⟩ := hfinal
    rw [bind_eq_ok] at hfinal
    obtain ⟨values, hvalues, hfinal⟩ := hfinal
    rw [bind_eq_ok] at hfinal
    obtain ⟨last, hlast, hfinal⟩ := hfinal
    rw [failIf_bind_eq_ok, pure_eq_ok, Except.ok.injEq] at hfinal
    obtain ⟨-, rfl⟩ := hfinal
    refine ⟨rfl, wons, ⟨row.profileId, values⟩, last, conflicts,
      ⟨⟨conflicts, hmerge⟩, values, hvalues, rfl⟩, .inr ⟨hnonempty, hlast⟩, ?_⟩
    rw [if_neg hnonempty]

/-! ### The condition -/

/-- The call does not meet the two things that keep it from being a write to registers: it archives
a card only while no clock is recorded for it, and the trigger on transactions leaves the row that it
is given. -/
structure Clean (pg : Conversions J V) (db : Db J V) (k : RowKey) (c : ChangeCall J) : Prop where
  archive : c.op = .delete → ∀ f, db.stampAt k f = 0
  trigger : ∀ change row wons written, db.checkCall c = .ok change → db.rowOf change = some row →
    db.Writes pg change row wons written →
      ∀ final, db.beforeUpdate pg change.entity wons written = .ok final → final = written

/-- The call is applied to the row. -/
def appliesTo (pg : Conversions J V) (admits : Db J V → Entity → Uuid → Row V → Bool) (db : Db J V)
    (k : RowKey) (c : ChangeCall J) : Bool :=
  decide (c.Addresses k) && match db.syncApplyChangeV2 pg admits c with
    | .ok (_, outcome) => outcome.applied
    | .error _ => false

/-- What the call writes to a field of the row, if it is applied to it. -/
def offered (pg : Conversions J V) (admits : Db J V → Entity → Uuid → Row V → Bool) (db : Db J V)
    (k : RowKey) (c : ChangeCall J) (field : String) : Option (Stamped ℤ V) :=
  if db.appliesTo pg admits k c then offerOf pg k c field else none

/-! ### A call is a write to each register -/

omit [DecidableEq J] in
theorem rowAt_eq_some : db.rowAt k = some row ↔
    db.rows.get? (k.entity, k.entityId) = some row ∧ row.profileId = k.profile := by
  unfold rowAt
  rw [Option.filter_eq_some_iff, decide_eq_true_iff]

omit [DecidableEq J] in
theorem rowOf_eq_rowAt : db.rowOf change = db.rowAt change.key := rfl

omit [DecidableEq J] in
/-- A change of another row finds the row under another key. -/
theorem key_ne_of_ne {row' : Row V} (hrow : db.rowAt k = some row)
    (hrow' : db.rowOf change = some row') (h : change.key ≠ k) :
    (k.entity, k.entityId) ≠ (change.entity, change.entityId) := by
  rw [rowOf_eq_rowAt, rowAt_eq_some] at hrow'
  rw [rowAt_eq_some] at hrow
  intro heq
  obtain ⟨hentity, hid⟩ := Prod.mk.inj heq
  rw [heq] at hrow
  obtain ⟨hget, hprofile⟩ := hrow
  obtain ⟨hget', hprofile'⟩ := hrow'
  dsimp only [Change.key] at hget' hprofile'
  rw [hget] at hget'
  cases hget'
  rw [hprofile] at hprofile'
  exact h (RowKey.mk.injEq _ _ _ _ _ _ ▸ ⟨hprofile'.symm, hentity.symm, hid.symm⟩)

omit [DecidableEq J] in
/-- What a change of another row leaves as it is. -/
theorem register_of_ne {rows : InsertionMap (Entity × Uuid) (Row V)} {op : SyncOp}
    {payload : InsertionMap String J} {clocks : InsertionMap String ℤ} {clientSeq : ℤ}
    (conflicts : List (ConflictRow J)) (hrow : db.rowAt k = some row) (h : change.key ≠ k)
    (hrows : rows.get? (k.entity, k.entityId) = db.rows.get? (k.entity, k.entityId)) :
    let db' := { db with rows := rows, syncConflicts := conflicts }.logChange change op payload clocks
      clientSeq
    db'.rowAt k = some row ∧ ∀ f, db'.register k row f = db.register k row f := by
  constructor
  · rw [rowAt_eq_some] at hrow ⊢
    exact ⟨hrows.trans hrow.1, hrow.2⟩
  · intro f
    exact Stamped.ext (stampAt_logChange_of_ne h f) rfl

omit [DecidableEq J] in
/-- A deletion that archives a card while no clock is recorded. -/
theorem register_applyDelete {clientSeq : ℤ} (hrow : db.rowOf change = some row)
    (hentity : change.entity = .userCards) (hstamp : ∀ f, db.stampAt change.key f = 0)
    (hop : c.op = .delete) :
    ∃ row', (db.applyDelete pg change row clientSeq).rowAt change.key = some row' ∧
      ∀ f, (db.applyDelete pg change row clientSeq).register change.key row' f =
        (offerOf pg change.key c f).elim (db.register change.key row f)
          (db.register change.key row f).offer := by
  unfold applyDelete
  dsimp only
  rw [if_pos hentity]
  refine ⟨{ row with values := Function.update row.values "is_archived" pg.archived }, ?_, ?_⟩
  · rw [rowOf_eq_rowAt, rowAt_eq_some] at hrow
    rw [rowAt_eq_some]
    exact ⟨InsertionMap.get?_set_self _ _ _, hrow.2⟩
  · intro f
    have hzero : clockIn (InsertionMap.empty : InsertionMap String ℤ) f = 0 := rfl
    unfold register
    rw [stampAt_logChange, hzero, hstamp, offerOf, if_pos hop]
    dsimp only
    by_cases hf : f = "is_archived"
    · rw [if_pos ⟨hentity, hf⟩, hf, Function.update_self, Option.elim_some, Stamped.offer_of_le]
      exact le_rfl
    · rw [if_neg fun h => hf h.2, Function.update_of_ne hf, Option.elim_none]

/-- An update whose row the trigger leaves as it is. -/
theorem register_applyUpdate {clientSeq : ℤ} {result : Db J V × Outcome}
    (hrow : db.rowOf change = some row) (hpayload : c.payload = some change.payload)
    (hclocks : c.fieldClocks = some change.fieldClocks) (hop : c.op ≠ .delete)
    (hclean : ∀ wons written, db.Writes pg change row wons written → ∀ final,
      db.beforeUpdate pg change.entity wons written = .ok final → final = written)
    (h : db.applyUpdate pg admits change row clientSeq = .ok result) :
    ∃ row', result.1.rowAt change.key = some row' ∧
      ∀ f, result.1.register change.key row' f =
        (offerOf pg change.key c f).elim (db.register change.key row f)
          (db.register change.key row f).offer := by
  obtain ⟨-, wons, written, final, conflicts, hwrites, hfinal, hresult⟩ := applyUpdate_eq_ok h
  have hwritten : final = written := by
    rcases hfinal with ⟨-, rfl, rfl⟩ | ⟨-, hfinal⟩
    · rfl
    · exact hclean wons written hwrites final hfinal
  obtain ⟨⟨_, hmerge⟩, values, hvalues, rfl⟩ := hwrites
  subst hwritten
  obtain ⟨hnodup, hvalid, hall⟩ := mergeFields_eq_ok change.entity.nodup_fields hmerge
  obtain ⟨hpopulated, hkept⟩ := populateAll_eq_ok hnodup hvalues
  obtain ⟨hclock, hclockKept⟩ := @clockIn_mergeClocks _
    (db.newestClocks change.profile change.entity.name change.entityId) _ hnodup
  rw [hresult]
  refine ⟨⟨row.profileId, values⟩, ?_, ?_⟩
  · rw [rowOf_eq_rowAt, rowAt_eq_some] at hrow
    rw [rowAt_eq_some]
    refine ⟨?_, hrow.2⟩
    rcases hfinal with ⟨hwons, hsame, -⟩ | ⟨hwons, -⟩
    · unfold logChange
      dsimp only
      rw [if_pos hwons, hsame]
      exact hrow.1
    · unfold logChange
      dsimp only
      rw [if_neg hwons]
      exact InsertionMap.get?_set_self _ _ _
  · intro f
    unfold register
    rw [stampAt_logChange]
    dsimp only
    by_cases hf : f ∈ wons.map Won.field
    · -- the field has won: the call offers it
      obtain ⟨w, hw, rfl⟩ := List.mem_map.mp hf
      obtain ⟨hfield, hwon⟩ := hvalid w hw
      rw [offerOf_of_update hop hfield hpayload hclocks hwon.value hwon.clock (hpopulated w hw),
        hclock w hw, Option.elim_some, Stamped.offer_of_le]
      exact hwon.newer
    · rw [hclockKept f hf, hkept f hf]
      cases hoffer : offerOf pg change.key c f with
      | none => rfl
      | some o =>
        -- the field has lost: what the call offers is older
        obtain ⟨hfield, payload, clocks, value, hpayload', hclocks', hvalue, ht, hv⟩ :=
          offerOf_eq_some hop hoffer
        rw [hpayload] at hpayload'
        rw [hclocks] at hclocks'
        cases hpayload'
        cases hclocks'
        obtain ⟨t, ht', hlost | hwon⟩ := hall f hfield value hvalue
        · rw [ht] at ht'
          cases ht'
          rw [Option.elim_some, Stamped.offer_of_lt]
          · rfl
          · exact hlost
        · exact absurd (List.mem_map.mpr ⟨_, hwon, rfl⟩) hf

/-- **A call is a write to each register of the row.** -/
theorem register_apply (hrow : db.rowAt k = some row)
    (hkept : c.Addresses k → c.op = .delete → k.entity ≠ .cardOverrides)
    (hclean : c.Addresses k → db.Clean pg k c) :
    ∃ row', (db.apply pg admits c).rowAt k = some row' ∧
      ∀ f, (db.apply pg admits c).register k row' f =
        (db.offered pg admits k c f).elim (db.register k row f) (db.register k row f).offer := by
  unfold apply offered appliesTo
  cases hsync : db.syncApplyChangeV2 pg admits c with
  | error e => exact ⟨row, hrow, fun f => by simp⟩
  | ok result =>
    obtain ⟨db', outcome⟩ := result
    dsimp only
    rcases syncApplyChangeV2_eq_ok hsync with ⟨hdb, houtcome, -⟩ |
      ⟨change, row₁, hadmit, hrow₁, htransaction, hcall⟩
    · dsimp only at hdb houtcome
      rw [hdb]
      exact ⟨row, hrow, fun f => by simp [houtcome]⟩
    by_cases hkey : change.key = k
    · have haddresses := (addresses_iff hadmit).mpr hkey
      subst hkey
      rw [rowOf_eq_rowAt, hrow] at hrow₁
      cases hrow₁
      obtain ⟨-, -, -, hpayload, hclocks⟩ := checkCall_eq_ok hadmit
      rcases hcall with ⟨hop, hresult⟩ | ⟨hop, hresult⟩
      · cases hresult
        have hentity : change.entity = .userCards := by
          have hoverride := hkept haddresses hop
          cases he : change.entity with
          | transactions => exact absurd hop (htransaction he)
          | userCards => rfl
          | cardOverrides => exact absurd he hoverride
        simp only [haddresses, decide_true, Bool.and_self, if_true]
        exact register_applyDelete hrow hentity ((hclean haddresses).archive hop) hop
      · have happlied := (applyUpdate_eq_ok hresult).1
        dsimp only at happlied
        simp only [haddresses, happlied, decide_true, Bool.and_self, if_true]
        exact register_applyUpdate hrow hpayload hclocks hop
          (fun wons written => (hclean haddresses).trigger change row wons written hadmit hrow)
          hresult
    · have haddresses : ¬ c.Addresses k := fun h => hkey ((addresses_iff hadmit).mp h)
      have hne := key_ne_of_ne hrow hrow₁ hkey
      simp only [haddresses, decide_false, Bool.false_and, Bool.false_eq_true, if_false,
        Option.elim_none]
      refine ⟨row, ?_⟩
      rcases hcall with ⟨-, hresult⟩ | ⟨-, hresult⟩
      · cases hresult
        refine register_of_ne db.syncConflicts hrow hkey ?_
        split
        · exact InsertionMap.get?_set_of_ne _ _ hne
        · rw [InsertionMap.get?_erase, if_neg hne]
      · obtain ⟨-, wons, written, final, conflicts, -, -, hresult⟩ := applyUpdate_eq_ok hresult
        dsimp only at hresult
        rw [hresult]
        refine register_of_ne (db.syncConflicts ++ conflicts) hrow hkey ?_
        split
        · rfl
        · exact InsertionMap.get?_set_of_ne _ _ hne

end Call

end Db

end PandaPay.Sync
