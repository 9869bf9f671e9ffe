import PandaPay.Sync.LastWrite

/-!
# Runs of changes

Devices send changes in any order. Along a run of calls the registers of a row take the writes of
the applied calls; so clocks never go back, each value is the newest one, and the order does not
matter where no two writes share a clock.

## Main definitions

* `Db.offers`: the writes of a run to a field
* `Db.CleanRun`, `Db.QuietRun`: every call about the row is clean; none raises
* `Db.LastWriteWins`: what the log and the row are to say after a run

## Main results

* `register_run`: the register after a run
* `last_write_wins`: last write wins in clean runs, in any order of the calls
* `not_last_write_wins`: not so when a card is archived between two edits
-/

namespace PandaPay.Sync

variable {J V : Type} [DecidableEq J]

namespace Db

section Defs

variable (pg : Conversions J V) (admits : Db J V → Entity → Uuid → Row V → Bool) (k : RowKey)

/-- What the calls of a run write to a field of the row. -/
def offers (f : String) : Db J V → List (ChangeCall J) → List (Stamped ℤ V)
  | _, [] => []
  | db, c :: calls =>
    (db.offered pg admits k c f).toList ++ offers f (db.apply pg admits c) calls

/-- Every call about the row is clean. -/
def CleanRun : Db J V → List (ChangeCall J) → Prop
  | _, [] => True
  | db, c :: calls => (c.Addresses k → db.Clean pg k c) ∧ CleanRun (db.apply pg admits c) calls

/-- No call about the row raises. -/
def QuietRun : Db J V → List (ChangeCall J) → Prop
  | _, [] => True
  | db, c :: calls => (c.Addresses k → ∃ result, db.syncApplyChangeV2 pg admits c = .ok result) ∧
    QuietRun (db.apply pg admits c) calls

/-- No call deletes the row for good. -/
def Keeps (calls : List (ChangeCall J)) : Prop :=
  ∀ c ∈ calls, c.Addresses k → c.op = .delete → k.entity ≠ .cardOverrides

/-- Along the run the clock of a field never decreases, and at its end clock and value are those of
the write with the greatest clock, the initial value being the oldest. -/
structure LastWriteWins (db : Db J V) (row : Row V) (calls : List (ChangeCall J)) : Prop where
  clocks : ∀ earlier later, calls = earlier ++ later → ∀ f,
    (db.run pg admits earlier).stampAt k f ≤ (db.run pg admits calls).stampAt k f
  values : ∃ row', (db.run pg admits calls).rowAt k = some row' ∧ ∀ f,
    ∃ o ∈ db.register k row f :: offers pg admits k f db calls,
      (db.run pg admits calls).stampAt k f = o.stamp ∧ row'.values f = o.value ∧
        ∀ o' ∈ db.register k row f :: offers pg admits k f db calls, o'.stamp ≤ o.stamp

end Defs

variable {pg : Conversions J V} {admits : Db J V → Entity → Uuid → Row V → Bool} {k : RowKey}
  {db : Db J V} {row : Row V} {calls calls' : List (ChangeCall J)}

theorem run_append (earlier later : List (ChangeCall J)) :
    db.run pg admits (earlier ++ later) = (db.run pg admits earlier).run pg admits later :=
  List.foldl_append

omit [DecidableEq J] in
theorem latest_toList_append (a : Stamped ℤ V) (o : Option (Stamped ℤ V)) (xs : List (Stamped ℤ V)) :
    a.latest (o.toList ++ xs) = (o.elim a a.offer).latest xs := by
  cases o <;> rfl

/-- **The register after a run holds the latest of the writes.** -/
theorem register_run (hrow : db.rowAt k = some row) (hkeeps : Keeps k calls)
    (hclean : CleanRun pg admits k db calls) :
    ∃ row', (db.run pg admits calls).rowAt k = some row' ∧ ∀ f,
      (db.run pg admits calls).register k row' f =
        (db.register k row f).latest (offers pg admits k f db calls) := by
  induction calls generalizing db row with
  | nil => exact ⟨row, hrow, fun f => rfl⟩
  | cons c calls ih =>
    obtain ⟨mid, hmid, hregister⟩ := @register_apply _ _ _ _ admits _ _ _ _ hrow
      (hkeeps c List.mem_cons_self) hclean.1
    obtain ⟨row', hrow', hrest⟩ := ih hmid (fun c hc => hkeeps c (List.mem_cons_of_mem _ hc))
      hclean.2
    refine ⟨row', hrow', fun f => ?_⟩
    rw [offers, latest_toList_append, ← hregister f]
    exact hrest f

theorem CleanRun.of_append {earlier later : List (ChangeCall J)}
    (h : CleanRun pg admits k db (earlier ++ later)) :
    CleanRun pg admits k db earlier ∧
      CleanRun pg admits k (db.run pg admits earlier) later := by
  induction earlier generalizing db with
  | nil => exact ⟨trivial, h⟩
  | cons c earlier ih =>
    obtain ⟨hearlier, hlater⟩ := ih h.2
    exact ⟨⟨h.1, hearlier⟩, hlater⟩

theorem lastWriteWins (hrow : db.rowAt k = some row) (hkeeps : Keeps k calls)
    (hclean : CleanRun pg admits k db calls) : LastWriteWins pg admits k db row calls where
  clocks := by
    rintro earlier later rfl f
    obtain ⟨hearlier, hlater⟩ := hclean.of_append
    obtain ⟨mid, hmid, -⟩ := register_run hrow
      (fun c hc => hkeeps c (List.mem_append_left _ hc)) hearlier
    obtain ⟨row', -, hregister⟩ := register_run hmid
      (fun c hc => hkeeps c (List.mem_append_right _ hc)) hlater
    have hstamp := congrArg Stamped.stamp (hregister f)
    rw [run_append]
    have hle := @Stamped.stamp_le_latest _ _ _ ((db.run pg admits earlier).register k mid f) _
      (offers pg admits k f (db.run pg admits earlier) later) List.mem_cons_self
    exact hle.trans hstamp.ge
  values := by
    obtain ⟨row', hrow', hregister⟩ := register_run hrow hkeeps hclean
    refine ⟨row', hrow', fun f => ⟨_, Stamped.latest_mem _ _, ?_, ?_, ?_⟩⟩
    · exact congrArg Stamped.stamp (hregister f)
    · exact congrArg Stamped.value (hregister f)
    · exact fun o ho => Stamped.stamp_le_latest ho

/-! ### The order of the calls -/

/-- The call passes the checks of the session, for this row. -/
def admittedFor (db : Db J V) (k : RowKey) (c : ChangeCall J) : Bool :=
  match db.checkCall c with
  | .ok change => change.key = k
  | .error _ => false

omit [DecidableEq J] in
theorem admittedFor_eq_true {c : ChangeCall J} :
    db.admittedFor k c = true ↔ ∃ change, db.checkCall c = .ok change ∧ change.key = k := by
  unfold admittedFor
  cases db.checkCall c with
  | error e => simp
  | ok change => simp

/-- Of a call that does not raise and finds its row, the checks of the session decide. -/
theorem appliesTo_eq_admittedFor {c : ChangeCall J} (hrow : db.rowAt k = some row)
    (hquiet : c.Addresses k → ∃ result, db.syncApplyChangeV2 pg admits c = .ok result) :
    db.appliesTo pg admits k c = db.admittedFor k c := by
  rw [Bool.eq_iff_iff, admittedFor_eq_true, appliesTo, Bool.and_eq_true, decide_eq_true_iff]
  constructor
  · rintro ⟨haddresses, happlied⟩
    obtain ⟨⟨db', outcome⟩, hsync⟩ := hquiet haddresses
    rw [hsync] at happlied
    dsimp only at happlied
    rcases syncApplyChangeV2_eq_ok hsync with ⟨-, hrefused, -⟩ | ⟨change, _, hadmit, -⟩
    · dsimp only at hrefused
      rw [hrefused] at happlied
      cases happlied
    · exact ⟨change, hadmit, (addresses_iff hadmit).mp haddresses⟩
  · rintro ⟨change, hadmit, hkey⟩
    have haddresses := (addresses_iff hadmit).mpr hkey
    obtain ⟨⟨db', outcome⟩, hsync⟩ := hquiet haddresses
    refine ⟨haddresses, ?_⟩
    rw [hsync]
    rcases syncApplyChangeV2_eq_ok hsync with ⟨-, -, hnone⟩ | ⟨_, _, -, -, -, hcall⟩
    · have hnone := hnone change hadmit
      rw [rowOf_eq_rowAt, hkey, hrow] at hnone
      cases hnone
    · rcases hcall with ⟨-, hresult⟩ | ⟨-, hresult⟩
      · cases hresult
        rfl
      · exact (applyUpdate_eq_ok hresult).1

theorem userDevices_apply (c : ChangeCall J) :
    (db.apply pg admits c).userDevices = db.userDevices := by
  unfold apply
  cases hsync : db.syncApplyChangeV2 pg admits c with
  | error e => rfl
  | ok result =>
    obtain ⟨db', outcome⟩ := result
    dsimp only
    rcases syncApplyChangeV2_eq_ok hsync with ⟨hdb, -, -⟩ | ⟨change, row, -, -, -, hcall⟩
    · dsimp only at hdb
      rw [hdb]
    · rcases hcall with ⟨-, hresult⟩ | ⟨-, hresult⟩
      · cases hresult
        rfl
      · obtain ⟨-, _, _, _, _, -, -, hresult⟩ := applyUpdate_eq_ok hresult
        dsimp only at hresult
        rw [hresult]
        rfl

omit [DecidableEq J] in
theorem checkCall_congr {db' : Db J V} (h : db'.userDevices = db.userDevices) (c : ChangeCall J) :
    db'.checkCall c = db.checkCall c := by
  unfold checkCall
  rw [h]

/-- What a quiet run writes depends on its calls alone. -/
theorem offers_eq_filterMap (hrow : db.rowAt k = some row) (hkeeps : Keeps k calls)
    (hclean : CleanRun pg admits k db calls) (hquiet : QuietRun pg admits k db calls) (f : String) :
    offers pg admits k f db calls = calls.filterMap fun c =>
      if db.admittedFor k c then offerOf pg k c f else none := by
  induction calls generalizing db row with
  | nil => rfl
  | cons c calls ih =>
    obtain ⟨mid, hmid, -⟩ := @register_apply _ _ _ _ admits _ _ _ _ hrow
      (hkeeps c List.mem_cons_self) hclean.1
    have hrest := ih hmid (fun c hc => hkeeps c (List.mem_cons_of_mem _ hc)) hclean.2 hquiet.2
    have hsame : ∀ c', (db.apply pg admits c).admittedFor k c' = db.admittedFor k c' := by
      intro c'
      rw [admittedFor, checkCall_congr (userDevices_apply c), admittedFor]
    simp only [hsame] at hrest
    rw [offers, hrest, offered, appliesTo_eq_admittedFor hrow hquiet.1, List.filterMap_cons]
    split
    · cases offerOf pg k c f <;> rfl
    · rfl

/-- **Last write wins in every clean run, and the order of the calls does not matter** where no two
writes to a field differ under one clock. -/
theorem last_write_wins (hrow : db.rowAt k = some row) (hkeeps : Keeps k calls)
    (hclean : CleanRun pg admits k db calls) :
    LastWriteWins pg admits k db row calls ∧
      ∀ calls', calls.Perm calls' → CleanRun pg admits k db calls' →
        QuietRun pg admits k db calls → QuietRun pg admits k db calls' →
        (∀ f, ∀ o ∈ offers pg admits k f db calls, ∀ o' ∈ offers pg admits k f db calls,
          o.stamp = o'.stamp → o = o') →
        (db.run pg admits calls').rowAt k = (db.run pg admits calls).rowAt k := by
  refine ⟨lastWriteWins hrow hkeeps hclean, ?_⟩
  intro calls' hperm hclean' hquiet hquiet' hdistinct
  have hkeeps' : Keeps k calls' := fun c hc => hkeeps c (hperm.mem_iff.mpr hc)
  obtain ⟨last, hlast, hregister⟩ := register_run hrow hkeeps hclean
  obtain ⟨last', hlast', hregister'⟩ := register_run hrow hkeeps' hclean'
  have hvalues : last'.values = last.values := by
    funext f
    have hoffers : (offers pg admits k f db calls).Perm (offers pg admits k f db calls') := by
      rw [offers_eq_filterMap hrow hkeeps hclean hquiet,
        offers_eq_filterMap hrow hkeeps' hclean' hquiet']
      exact hperm.filterMap _
    have hlatest := Stamped.latest_perm hoffers (hdistinct f) (db.register k row f)
    rw [← hregister f, ← hregister' f] at hlatest
    exact (congrArg Stamped.value hlatest).symm
  have hprofile : last'.profileId = last.profileId :=
    (rowAt_eq_some.mp hlast').2.trans (rowAt_eq_some.mp hlast).2.symm
  rw [hlast', hlast]
  cases last
  cases last'
  cases hvalues
  cases hprofile
  rfl

end Db

/-! ### A card between two devices -/

section Card

/-- Conversions of columns that hold texts. -/
def textColumns : Conversions String String where
  null := "null"
  numeric _ := none
  uuid s := some s
  populate _ _ s := some s
  toJsonb s := s
  uuidColumn id := id.getD "null"
  uuidOf s := if s = "null" then none else some s
  archived := "true"

/-- The card of `"meera"`, who has a phone and a tablet. -/
def meeraCard : Db String String where
  rows := InsertionMap.empty.set (.userCards, "card")
    ⟨"meera", fun f => if f = "is_archived" then "false" else "null"⟩
  userDevices := (InsertionMap.empty.set "phone" "meera").set "tablet" "meera"
  userCategories := .empty
  changeLog := []
  syncConflicts := []

def cardKey : RowKey := ⟨"meera", .userCards, "card"⟩

/-- A change of the card from a device. -/
def cardChange (device : Uuid) (op : SyncOp) (payload : InsertionMap String String)
    (clocks : InsertionMap String Clock) : ChangeCall String where
  caller := some "meera"
  profile := some "meera"
  device := some device
  entity := "user_cards"
  entityId := "card"
  op := op
  payload := some payload
  fieldClocks := some clocks
  clientSeq := 1

/-- The nickname is set from a device, at a clock. -/
def nickname (device : Uuid) (text : String) (clock : ℤ) : ChangeCall String :=
  cardChange device .update (InsertionMap.empty.set "nickname" text)
    (InsertionMap.empty.set "nickname" (.bigint clock))

def allAdmitted : Db String String → Entity → Uuid → Row String → Bool := fun _ _ _ _ => true

/-- The phone is renamed at 10, the tablet archives the card, and then sends the name it gave it at
5. -/
def staleCalls : List (ChangeCall String) :=
  [nickname "phone" "Travel" 10, cardChange "tablet" .delete .empty .empty,
    nickname "tablet" "Groceries" 5]

/-- The deletion drops the clocks, so the stale name wins. -/
theorem not_last_write_wins : ∃ row, meeraCard.rowAt cardKey = some row ∧
    Db.Keeps cardKey staleCalls ∧
    ((meeraCard.run textColumns allAdmitted staleCalls).rowAt cardKey).map (·.values "nickname") =
      some "Groceries" ∧
    ¬ Db.LastWriteWins textColumns allAdmitted cardKey meeraCard row staleCalls := by
  refine ⟨_, rfl, ?_, by decide +kernel, ?_⟩
  · exact fun c _ _ _ => by decide
  · intro h
    have hclocks := h.clocks [nickname "phone" "Travel" 10]
      [cardChange "tablet" .delete .empty .empty, nickname "tablet" "Groceries" 5] rfl "nickname"
    revert hclocks
    decide +kernel

/-- An edit of a card is clean. -/
theorem clean_of_edit {db : Db String String} {c : ChangeCall String} (hop : c.op = .update)
    (h : c.Addresses cardKey) : db.Clean textColumns cardKey c where
  archive hdelete := by
    rw [hop] at hdelete
    cases hdelete
  trigger change row wons written hadmit _ _ final hfinal := by
    have hkey := (Db.addresses_iff hadmit).mp h
    have hentity : change.entity ≠ .transactions := by
      rw [show change.entity = .userCards from congrArg RowKey.entity hkey]
      decide
    rw [Db.beforeUpdate, if_neg fun hboth => hentity hboth.1] at hfinal
    cases hfinal
    rfl

theorem offerOf_nickname {device : Uuid} {text : String} {clock : ℤ} {f : String}
    (hf : f ≠ "nickname") : offerOf textColumns cardKey (nickname device text clock) f = none := by
  cases hoffer : offerOf textColumns cardKey (nickname device text clock) f with
  | none => rfl
  | some o =>
    obtain ⟨-, payload, _, value, hpayload, -, hvalue, -, -⟩ :=
      offerOf_eq_some (show SyncOp.update ≠ .delete by decide) hoffer
    cases hpayload
    rw [InsertionMap.get?_set_of_ne _ _ hf] at hvalue
    cases hvalue

/-- Two edits of a name, in either order. -/
theorem last_write_wins_nickname :
    (meeraCard.run textColumns allAdmitted
        [nickname "tablet" "Groceries" 5, nickname "phone" "Travel" 10]).rowAt cardKey =
      (meeraCard.run textColumns allAdmitted
        [nickname "phone" "Travel" 10, nickname "tablet" "Groceries" 5]).rowAt cardKey := by
  have hclean : ∀ (db : Db String String) device text clock, (nickname device text clock).Addresses
      cardKey → db.Clean textColumns cardKey (nickname device text clock) :=
    fun db device text clock => clean_of_edit rfl
  refine (@Db.last_write_wins _ _ _ textColumns allAdmitted cardKey meeraCard _
    [nickname "phone" "Travel" 10, nickname "tablet" "Groceries" 5] rfl ?_ ?_).2 _
    (List.Perm.swap _ _ _) ?_ ?_ ?_ ?_
  · exact fun c _ _ _ => by decide
  · exact ⟨hclean _ _ _ _, hclean _ _ _ _, trivial⟩
  · exact ⟨hclean _ _ _ _, hclean _ _ _ _, trivial⟩
  · exact ⟨fun _ => ⟨_, rfl⟩, fun _ => ⟨_, rfl⟩, trivial⟩
  · exact ⟨fun _ => ⟨_, rfl⟩, fun _ => ⟨_, rfl⟩, trivial⟩
  · intro f
    by_cases hf : f = "nickname"
    · rw [hf]
      decide +kernel
    · have hempty : ∀ db : Db String String, Db.offers textColumns allAdmitted cardKey f db
          [nickname "phone" "Travel" 10, nickname "tablet" "Groceries" 5] = [] := by
        intro db
        simp [Db.offers, Db.offered, offerOf_nickname hf]
      rw [hempty]
      exact fun _ ho => absurd ho List.not_mem_nil

end Card

end PandaPay.Sync
