import PandaPay.SmsV2.Linker.Calls

/-!
# Uploaded events

`mergeEvent` and `upsertEvents` of `storage.js`: what the server stores when phones upload versions of
events. A document of an event is as the contract has it, so ids are no timestamps, and two documents
are the same when they differ at most in `occurredAt` by less than a millisecond.

## Main definitions

* `mergeEvent`: an uploaded version merged into the stored one
* `upload`: the stored row after an upload, which a rejected one leaves alone
* `upsertEvents`: a batch of uploads of one profile

## Main results

* `mergeEvent_eq_ok`: what a merge does
* `upsertEvents_get?`: a batch uploads its versions to the row of each event one by one
* `events_merge_monotone`: statuses move along `statusNext`, confirmed rows are only replaced by
  confirmed versions, legs stay
-/

namespace PandaPay.SmsV2

/-- `STATUS_NEXT`. -/
def statusNext : EventStatus → List EventStatus
  | .awaitingLeg => [.awaitingLeg, .complete, .ambiguous, .userConfirmed]
  | .ambiguous => [.ambiguous, .complete, .userConfirmed]
  | .complete => [.complete, .userConfirmed]
  | .userConfirmed => [.userConfirmed]

/-- The codes of `mergeEvent`. -/
inductive MergeConflict where
  | eventStatusLocked
  | eventStatusTransitionInvalid
  | eventLegRoleConflict
  deriving DecidableEq

/-- `sameDoc`: timestamps compare as instants, which `Date.parse` has in milliseconds. -/
def sameDoc (a b : Event) : Bool :=
  { a with occurredAt := a.occurredAt / 1000 } = { b with occurredAt := b.occurredAt / 1000 }

/-- The `merged` and `changed` of `mergeEvent`. -/
structure Merged where
  merged : Event
  changed : Bool
  deriving DecidableEq

/-- `new Map(ex.legs.map((l) => [l.factId, l.role]))`. -/
def roleById (legs : List EventLeg) : InsertionMap JsString LegRole :=
  legs.foldl (fun m l => m.set l.factId l.role) .empty

/-- The body of the loop of `mergeEvent`, over the roles by fact and the legs. -/
def mergeLeg (acc : InsertionMap JsString LegRole × List EventLeg) (l : EventLeg) :
    Except MergeConflict (InsertionMap JsString LegRole × List EventLeg) :=
  match acc.1.get? l.factId with
  | none => .ok (acc.1.set l.factId l.role, acc.2 ++ [l])
  | some role => if role = l.role then .ok acc else .error .eventLegRoleConflict

/-- `mergeEvent`. -/
def mergeEvent (ex : Option Event) (inc : Event) : Except MergeConflict Merged :=
  match ex with
  | none => .ok ⟨inc, true⟩
  | some ex =>
    if inc.status ∉ statusNext ex.status then
      .error (if ex.status = .userConfirmed then .eventStatusLocked else .eventStatusTransitionInvalid)
    else if inc.status = .userConfirmed then .ok ⟨inc, !sameDoc inc ex⟩
    else do
      let (_, legs) ← inc.legs.foldlM mergeLeg (roleById ex.legs, ex.legs)
      let merged := { inc with legs := legs }
      return ⟨merged, !sameDoc merged ex⟩

/-- The stored row after an upload. -/
def upload (row : Option Event) (inc : Event) : Option Event :=
  match mergeEvent row inc with
  | .ok m => if m.changed then some m.merged else row
  | .error _ => row

/-! ### Batches -/

/-- The outcome of an uploaded event. -/
inductive Outcome where
  | accepted
  | duplicate
  | eventLegFactUnknown (leg : ℕ)
  | conflict (code : MergeConflict)
  | eventIdConflict
  deriving DecidableEq

/-- The state of the loop of `upsertEvents`. -/
structure Upserting where
  current : InsertionMap JsString Event
  outcome : InsertionMap JsString Outcome := .empty
  /-- `order`; `written` has the same ids. -/
  order : List JsString := []

/-- The body of the loop of `upsertEvents`. -/
def upsertStep (known : JsString → Bool) (u : Upserting) (inc : Event) : Upserting :=
  match inc.legs.findIdx? fun l => !known l.factId with
  | some missing => { u with outcome := u.outcome.set inc.eventId (.eventLegFactUnknown missing) }
  | none =>
    match mergeEvent (u.current.get? inc.eventId) inc with
    | .error code => { u with outcome := u.outcome.set inc.eventId (.conflict code) }
    | .ok m =>
      if m.changed = false then { u with outcome := u.outcome.set inc.eventId .duplicate }
      else
        { current := u.current.set inc.eventId m.merged
          outcome := u.outcome.set inc.eventId .accepted
          order := addTo u.order inc.eventId }

/-- `upsertEvents`: the rows of the profile after it, and a result for each event. `known` are the facts
of the profile, and `taken` the ids of events of others. -/
def upsertEvents (known taken : JsString → Bool) (rows : InsertionMap JsString Event)
    (events : List Event) : InsertionMap JsString Event × List (JsString × Outcome) :=
  let u := events.foldl (upsertStep known)
    { current := rows.filter fun id _ => id ∈ events.map Event.eventId }
  let isConflict (id : JsString) : Bool := (rows.get? id).isNone && taken id
  let stored := (u.order.filter fun id => !isConflict id).foldl
    (fun (rows : InsertionMap JsString Event) id =>
      match u.current.get? id with
      | some e => rows.set id e
      | none => rows) rows
  let outcome := (u.order.filter isConflict).foldl
    (fun (m : InsertionMap JsString Outcome) id => m.set id .eventIdConflict) u.outcome
  let results := events.zipIdx.map fun (e, i) =>
    if e.eventId ∈ (events.take i).map Event.eventId then (e.eventId, .duplicate)
    else (e.eventId, (outcome.get? e.eventId).getD .duplicate)
  (stored, results)

section Merge

variable {ex inc : Event} {m : Merged} {row : Option Event}

/-! ### Statuses -/

/-- A status may stay. -/
theorem mem_statusNext_self (status : EventStatus) : status ∈ statusNext status := by
  cases status <;> decide

theorem mem_statusNext_trans {a b c : EventStatus} (h : b ∈ statusNext a) (h' : c ∈ statusNext b) :
    c ∈ statusNext a := by
  cases a <;> cases b <;> cases c <;> revert h h' <;> decide

theorem sameDoc_self (e : Event) : sameDoc e e = true := decide_eq_true rfl

/-! ### Legs -/

/-- The loop over the legs only adds legs, each of a fact that had none. -/
theorem foldlM_mergeLeg {new : List EventLeg} {acc acc' : InsertionMap JsString LegRole × List EventLeg}
    (h : new.foldlM mergeLeg acc = .ok acc') : acc.2 <+: acc'.2 := by
  refine foldlM_induction (P := fun acc' : InsertionMap JsString LegRole × List EventLeg =>
    acc.2 <+: acc'.2) (fun acc₁ l acc₂ _ hprefix hstep => ?_) List.prefix_rfl h
  unfold mergeLeg at hstep
  split at hstep
  · obtain rfl := Except.ok.inj hstep
    exact hprefix.trans (List.prefix_append _ _)
  · split_ifs at hstep
    exact Except.ok.inj hstep ▸ hprefix

/-- A merge keeps to `statusNext`, and adds legs to those there are unless the version is confirmed. -/
theorem mergeEvent_eq_ok (h : mergeEvent (some ex) inc = .ok m) :
    inc.status ∈ statusNext ex.status ∧ m.merged.status = inc.status ∧
      m.changed = !sameDoc m.merged ex ∧
      (inc.status = .userConfirmed ∧ m.merged = inc ∨
        inc.status ≠ .userConfirmed ∧ ex.legs <+: m.merged.legs) := by
  unfold mergeEvent at h
  dsimp only at h
  split_ifs at h with hno hconfirmed
  · obtain rfl := Except.ok.inj h
    exact ⟨hno, rfl, rfl, .inl ⟨hconfirmed, rfl⟩⟩
  · obtain ⟨⟨roles, legs⟩, hlegs, h⟩ := bind_eq_ok.mp h
    obtain rfl := Except.ok.inj h
    exact ⟨hno, rfl, rfl, .inr ⟨hconfirmed, foldlM_mergeLeg hlegs⟩⟩

/-! ### Uploads -/

/-- An upload leaves the row or stores the merged version. -/
theorem upload_some (ex inc : Event) : upload (some ex) inc = some ex ∨
    ∃ m, mergeEvent (some ex) inc = .ok m ∧ m.changed = true ∧ upload (some ex) inc = some m.merged := by
  unfold upload
  split
  next m hm =>
    split_ifs with hchanged
    · exact .inr ⟨m, hm, hchanged, rfl⟩
    · exact .inl rfl
  next => exact .inl rfl

theorem isSome_upload (h : row.isSome) (inc : Event) : (upload row inc).isSome := by
  obtain ⟨ex, rfl⟩ := Option.isSome_iff_exists.mp h
  rcases upload_some ex inc with heq | ⟨m, -, -, heq⟩ <;> simp [heq]

/-- The legs of a row. -/
def legsOf (row : Option Event) : List EventLeg := (row.map Event.legs).getD []

theorem legsOf_prefix_upload (h : inc.status ≠ .userConfirmed) :
    legsOf row <+: legsOf (upload row inc) := by
  cases row with
  | none => exact List.nil_prefix
  | some ex =>
    rcases upload_some ex inc with heq | ⟨m, hm, -, heq⟩ <;> rw [heq]
    rcases (mergeEvent_eq_ok hm).2.2.2 with ⟨hconfirmed, -⟩ | ⟨-, hlegs⟩
    · exact absurd hconfirmed h
    · exact hlegs

theorem legsOf_prefix_foldl {incs : List Event} (h : ∀ inc ∈ incs, inc.status ≠ .userConfirmed) :
    legsOf row <+: legsOf (incs.foldl upload row) := by
  induction incs generalizing row with
  | nil => exact List.prefix_rfl
  | cons inc incs ih =>
    rw [List.forall_mem_cons] at h
    exact (legsOf_prefix_upload h.1).trans (ih h.2)

theorem get?_roleById_append (legs : List EventLeg) (l : EventLeg) (id : JsString) :
    (roleById (legs ++ [l])).get? id =
      if id = l.factId then some l.role else (roleById legs).get? id := by
  unfold roleById
  rw [List.foldl_append, List.foldl_cons, List.foldl_nil, InsertionMap.get?_set]

theorem isSome_roleById {legs : List EventLeg} {l : EventLeg} (h : l ∈ legs) :
    ((roleById legs).get? l.factId).isSome := by
  induction legs using List.reverseRecOn with
  | nil => simp at h
  | append_singleton legs l' ih =>
    rw [get?_roleById_append]
    split_ifs with hid
    · rfl
    · rcases List.mem_append.mp h with h | h
      · exact ih h
      · exact absurd (congrArg EventLeg.factId (List.mem_singleton.mp h)) hid

/-- Legs of facts that have a leg already add nothing. -/
theorem foldlM_mergeLeg_of_known {new : List EventLeg}
    {acc acc' : InsertionMap JsString LegRole × List EventLeg}
    (hknown : ∀ l ∈ new, (acc.1.get? l.factId).isSome) (h : new.foldlM mergeLeg acc = .ok acc') :
    acc' = acc := by
  refine foldlM_induction (P := fun acc' => acc' = acc) (fun acc₁ l acc₂ hl hacc hstep => ?_) rfl h
  subst hacc
  obtain ⟨role, hrole⟩ := Option.isSome_iff_exists.mp (hknown l hl)
  simp only [mergeLeg, hrole] at hstep
  split_ifs at hstep
  exact (Except.ok.inj hstep).symm

/-- A stored version that is uploaded again changes nothing. -/
theorem upload_self (e : Event) : upload (some e) e = some e := by
  rcases upload_some e e with heq | ⟨m, hm, hchanged, -⟩
  · exact heq
  · exfalso
    have hmerged : m.merged = e := by
      unfold mergeEvent at hm
      dsimp only at hm
      rw [if_neg (not_not.mpr (mem_statusNext_self e.status))] at hm
      split_ifs at hm
      · exact congrArg Merged.merged (Except.ok.inj hm).symm
      · obtain ⟨⟨roles, legs⟩, hlegs, hm⟩ := bind_eq_ok.mp hm
        have hsame := foldlM_mergeLeg_of_known (fun l hl => isSome_roleById hl) hlegs
        obtain ⟨-, rfl⟩ := Prod.mk.inj hsame
        exact congrArg Merged.merged (Except.ok.inj hm).symm
    rw [(mergeEvent_eq_ok hm).2.2.1, hmerged, sameDoc_self] at hchanged
    simp at hchanged

/-- The status of a row moves along `statusNext`. -/
theorem status_upload {e' : Event} (h : upload (some ex) inc = some e') :
    e'.status ∈ statusNext ex.status := by
  rcases upload_some ex inc with heq | ⟨m, hm, -, heq⟩ <;> rw [heq] at h
  · exact Option.some.inj h ▸ mem_statusNext_self ex.status
  · obtain ⟨hstatus, hmerged, -⟩ := mergeEvent_eq_ok hm
    rw [← Option.some.inj h, hmerged]
    exact hstatus

/-- A confirmed row stays or is replaced by a confirmed version. -/
theorem upload_userConfirmed {e' : Event} (h : upload (some ex) inc = some e')
    (hstatus : ex.status = .userConfirmed) :
    e' = ex ∨ e' = inc ∧ inc.status = .userConfirmed := by
  rcases upload_some ex inc with heq | ⟨m, hm, -, heq⟩ <;> rw [heq] at h
  · exact .inl (Option.some.inj h).symm
  · obtain ⟨hnext, -, -, hcases⟩ := mergeEvent_eq_ok hm
    rw [hstatus] at hnext
    have hconfirmed : inc.status = .userConfirmed := List.mem_singleton.mp hnext
    rcases hcases with ⟨-, hmerged⟩ | ⟨hno, -⟩
    · exact .inr ⟨(Option.some.inj h).symm.trans hmerged, hconfirmed⟩
    · exact absurd hconfirmed hno

/-! ### Runs -/

theorem status_foldl {incs : List Event} {e : Event} : ∃ e', incs.foldl upload (some e) = some e' ∧
    e'.status ∈ statusNext e.status := by
  induction incs generalizing e with
  | nil => exact ⟨e, rfl, mem_statusNext_self e.status⟩
  | cons inc incs ih =>
    obtain ⟨e₁, he₁⟩ := Option.isSome_iff_exists.mp (@isSome_upload (some e) rfl inc)
    obtain ⟨e₂, he₂, hstatus⟩ := @ih e₁
    refine ⟨e₂, ?_, mem_statusNext_trans (status_upload he₁) hstatus⟩
    rw [List.foldl_cons, he₁, he₂]

/-- Whatever versions of an event are uploaded in whatever order: an upload moves the status along
`statusNext` and replaces a confirmed row by a confirmed version at most, the status stays reachable by
such moves, legs are kept with their roles as long as no version is confirmed, and a stored version
that is uploaded again changes nothing. -/
theorem events_merge_monotone (earlier later : List Event) :
    (∀ inc e e', earlier.foldl upload none = some e → upload (some e) inc = some e' →
      e'.status ∈ statusNext e.status ∧
        (e.status = .userConfirmed → e' = e ∨ e' = inc ∧ inc.status = .userConfirmed)) ∧
    (∀ e, earlier.foldl upload none = some e → ∃ e', (earlier ++ later).foldl upload none = some e' ∧
      e'.status ∈ statusNext e.status) ∧
    ((∀ inc ∈ earlier ++ later, inc.status ≠ .userConfirmed) →
      legsOf (earlier.foldl upload none) <+: legsOf ((earlier ++ later).foldl upload none)) ∧
    ∀ e, earlier.foldl upload none = some e → upload (earlier.foldl upload none) e = some e := by
  rw [List.foldl_append]
  refine ⟨fun inc e e' _ hupload => ⟨status_upload hupload, upload_userConfirmed hupload⟩,
    fun e he => ?_, fun hopen => ?_, fun e he => ?_⟩
  · rw [he]
    exact status_foldl
  · exact legsOf_prefix_foldl fun inc hinc => hopen inc (List.mem_append_right _ hinc)
  · rw [he, upload_self]

end Merge

/-! ### Rows of a batch -/

section Batch

variable {known taken : JsString → Bool} {rows : InsertionMap JsString Event} {events : List Event}
  {id : JsString}

/-- The versions of an event in a batch whose facts the server has. -/
def versionsOf (known : JsString → Bool) (id : JsString) (events : List Event) : List Event :=
  events.filter fun inc => inc.eventId = id && inc.legs.all fun l => known l.factId

theorem findIdx?_unknown {inc : Event} :
    (inc.legs.findIdx? fun l => !known l.factId) = none ↔ inc.legs.all (fun l => known l.factId) := by
  simp [List.findIdx?_eq_none_iff]

/-- What the loop of `upsertEvents` has done to the row of an event. -/
structure Upserted (row : Option Event) (incs : List Event) (id : JsString) (u : Upserting) : Prop where
  current : u.current.get? id = incs.foldl upload row
  unwritten : id ∉ u.order → u.current.get? id = row
  written : id ∈ u.order → (u.current.get? id).isSome

theorem upsertStep_upserted {row : Option Event} {incs : List Event} {u : Upserting} (inc : Event)
    (h : Upserted row incs id u) :
    Upserted row (incs ++ versionsOf known id [inc]) id (upsertStep known u inc) := by
  unfold upsertStep versionsOf
  cases hmissing : inc.legs.findIdx? fun l => !known l.factId with
  | some missing =>
    have hno : (inc.legs.all fun l => known l.factId) = false := by
      rw [← Bool.not_eq_true, ← findIdx?_unknown, hmissing]
      nofun
    rw [List.filter_cons_of_neg (by simp [hno]), List.filter_nil, List.append_nil]
    exact ⟨h.current, h.unwritten, h.written⟩
  | none =>
    have hall := findIdx?_unknown.mp hmissing
    by_cases hid : inc.eventId = id
    · subst hid
      rw [List.filter_cons_of_pos (by simp [hall]), List.filter_nil]
      have hfold : (incs ++ [inc]).foldl upload row = upload (u.current.get? inc.eventId) inc := by
        rw [List.foldl_append, List.foldl_cons, List.foldl_nil, h.current]
      cases hmerge : mergeEvent (u.current.get? inc.eventId) inc with
      | error code =>
        have hupload : upload (u.current.get? inc.eventId) inc = u.current.get? inc.eventId := by
          rw [upload, hmerge]
        exact ⟨by rw [hfold, hupload], h.unwritten, h.written⟩
      | ok m =>
        dsimp only
        by_cases hchanged : m.changed = false
        · have hupload : upload (u.current.get? inc.eventId) inc = u.current.get? inc.eventId := by
            rw [upload, hmerge]
            simp [hchanged]
          rw [if_pos hchanged]
          exact ⟨by rw [hfold, hupload], h.unwritten, h.written⟩
        · have hupload : upload (u.current.get? inc.eventId) inc = some m.merged := by
            rw [upload, hmerge]
            simp [hchanged]
          rw [if_neg hchanged]
          refine ⟨?_, fun hno => ?_, fun _ => ?_⟩
          · rw [hfold, hupload]
            exact InsertionMap.get?_set_self _ _ _
          · exact absurd (mem_addTo.mpr (.inr rfl)) hno
          · dsimp only
            rw [InsertionMap.get?_set_self]
            rfl
    · rw [List.filter_cons_of_neg (by simp [hid]), List.filter_nil, List.append_nil]
      have hne : id ≠ inc.eventId := fun h => hid h.symm
      cases mergeEvent (u.current.get? inc.eventId) inc with
      | error code => exact ⟨h.current, h.unwritten, h.written⟩
      | ok m =>
        dsimp only
        split_ifs
        · exact ⟨h.current, h.unwritten, h.written⟩
        · have hget : (u.current.set inc.eventId m.merged).get? id = u.current.get? id :=
            InsertionMap.get?_set_of_ne _ _ hne
          refine ⟨hget.trans h.current, fun hno => ?_, fun hin => ?_⟩
          · exact hget.trans (h.unwritten fun hin => hno (mem_addTo.mpr (.inl hin)))
          · dsimp only
            rw [hget]
            exact h.written ((mem_addTo.mp hin).resolve_right hne)

theorem upserted_foldl {row : Option Event} {u : Upserting} (h : Upserted row [] id u) :
    Upserted row (versionsOf known id events) id (events.foldl (upsertStep known) u) := by
  have hfold : ∀ (done events : List Event) (u : Upserting), Upserted row done id u →
      Upserted row (done ++ versionsOf known id events) id (events.foldl (upsertStep known) u) := by
    intro done events
    induction events generalizing done with
    | nil => exact fun u hu => (List.append_nil done).symm ▸ hu
    | cons inc events ih =>
      intro u hu
      have hstep := ih _ _ (@upsertStep_upserted known _ _ _ _ inc hu)
      rwa [List.append_assoc, versionsOf, versionsOf, ← List.filter_append] at hstep
  exact hfold [] events u h

theorem get?_foldl_stored {current : InsertionMap JsString Event} (ids : List JsString)
    (hsome : ∀ i ∈ ids, (current.get? i).isSome) :
    (ids.foldl (fun (rows : InsertionMap JsString Event) i =>
      match current.get? i with
      | some e => rows.set i e
      | none => rows) rows).get? id = if id ∈ ids then current.get? id else rows.get? id := by
  induction ids generalizing rows with
  | nil => rfl
  | cons i ids ih =>
    rw [List.forall_mem_cons] at hsome
    obtain ⟨e, he⟩ := Option.isSome_iff_exists.mp hsome.1
    rw [List.foldl_cons, ih hsome.2]
    simp only [he, List.mem_cons]
    by_cases hin : id ∈ ids
    · simp [hin]
    · rw [if_neg hin, InsertionMap.get?_set]
      split_ifs with h h'
      · rw [h, he]
      · exact absurd (.inl h) h'
      · exact absurd (by simpa [hin] using ‹id = i ∨ id ∈ ids›) h
      · rfl

/-- A batch uploads its versions to the row of each event one by one, if the profile may have it. -/
theorem upsertEvents_get? : (upsertEvents known taken rows events).1.get? id =
    if ((rows.get? id).isNone && taken id) = true then none
    else (versionsOf known id events).foldl upload (rows.get? id) := by
  set current := rows.filter fun i _ => i ∈ events.map Event.eventId with hcurrent
  set u := events.foldl (upsertStep known) { current := current } with hu
  have hall (i : JsString) : Upserted (current.get? i) (versionsOf known i events) i u :=
    upserted_foldl ⟨rfl, fun _ => rfl, fun h => by simp at h⟩
  have hget : (upsertEvents known taken rows events).1.get? id =
      if id ∈ u.order.filter (fun i => !((rows.get? i).isNone && taken i)) then u.current.get? id
      else rows.get? id := by
    refine get?_foldl_stored _ fun i hi => ?_
    exact (hall i).written (List.mem_of_mem_filter hi)
  have hstart : id ∈ events.map Event.eventId → current.get? id = rows.get? id := fun hid => by
    rw [hcurrent, InsertionMap.get?_filter]
    cases rows.get? id <;> simp_all
  have habsent : id ∉ events.map Event.eventId →
      current.get? id = none ∧ versionsOf known id events = [] := fun hid => by
    refine ⟨?_, List.filter_eq_nil_iff.mpr fun inc hinc hkeep => hid ?_⟩
    · rw [hcurrent, InsertionMap.get?_filter]
      cases rows.get? id <;> simp_all
    · simp only [Bool.and_eq_true, decide_eq_true_eq] at hkeep
      exact hkeep.1 ▸ List.mem_map_of_mem hinc
  simp only [hget, List.mem_filter]
  by_cases hconflict : ((rows.get? id).isNone && taken id) = true
  · rw [if_pos hconflict, if_neg (by simp [hconflict])]
    simp only [Bool.and_eq_true, Option.isNone_iff_eq_none] at hconflict
    exact hconflict.1
  · rw [if_neg hconflict]
    by_cases hid : id ∈ events.map Event.eventId
    · have hfold : (versionsOf known id events).foldl upload (rows.get? id) = u.current.get? id := by
        rw [← hstart hid, (hall id).current]
      rw [hfold]
      split_ifs with hwritten
      · rfl
      · rw [← hstart hid]
        refine ((hall id).unwritten fun hin => hwritten ⟨hin, ?_⟩).symm
        rw [Bool.not_eq_true']
        exact eq_false_of_ne_true hconflict
    · obtain ⟨hnone, hversions⟩ := habsent hid
      have hunwritten : id ∉ u.order := fun hin => by
        have hsome := (hall id).written hin
        rw [(hall id).current, hversions, hnone] at hsome
        simp at hsome
      rw [if_neg fun h => hunwritten h.1, hversions, List.foldl_nil]

end Batch

end PandaPay.SmsV2
