import PandaPay.SharedExpenses.Sql.Members

/-!
# The owner of a context

A context has one active owner. Requests and the deletion of accounts keep it so; an ownership call reads the
caller's row before it has the lock, and whether it keeps the owner unique is up to what it has read: the owner who
hands a context over has to be the owner still, a member who takes a context over has to be there still, and one who
leaves must not have become the owner. A call that is committed before anything else happens always meets this.

## Main definitions

* `Db.ActiveOwner`, `Db.OneOwner`: the active owners of a context, and that each context has exactly one
* `Db.StillHolds`: what a waiting call has read is true
* `Turn`: an ownership call that nothing interrupts, or any other move

## Main results

* `oneOwner_iff_of_run`: there is one owner throughout a run exactly if every call that is committed finds true what it
  has read
* `oneOwner_of_turns`: calls that nothing interrupts keep one owner
-/

namespace PandaPay.SharedExpenses.Sql

/-- An active member with the role of an owner. -/
def Db.ActiveOwner (db : Db) (ctx id : Uuid) : Prop :=
  ∃ m, db.members.get? (ctx, id) = some m ∧ m.role = .owner ∧ m.state = .active

/-- Every context has exactly one active owner. -/
def Db.OneOwner (db : Db) : Prop := ∀ ctx ∈ db.contexts.keys, ∃! id, db.ActiveOwner ctx id

/-- What a call has read before it waited is true: its caller is the owner that hands the context over, is a member
still, or is not the owner. -/
def Db.StillHolds (db : Db) : Call → Prop
  | .transfer profile ctx target =>
    ∀ id m, db.members.get? (ctx, id) = some m → m.role = .owner → m.state = .active →
      id = target ∨ m.profileId = some profile
  | .takeOver _ ctx me => ∃ m, db.members.get? (ctx, me) = some m ∧ m.state = .active
  | .leave _ ctx me _ => ¬ db.ActiveOwner ctx me

/-- A waiting call gets the lock and is committed. -/
def System.Commits (s : System) (move : Move) (call : Call) : Prop :=
  ∃ i db', move = .commit i ∧ s.waiting[i]? = some call ∧ s.db.commit call = .ok db'

section Owners

variable {db db' : Db}

theorem oneOwner_of_same (h : db.OneOwner) (hcontexts : db'.contexts = db.contexts)
    (hsame : ∀ ctx id, db'.ActiveOwner ctx id ↔ db.ActiveOwner ctx id) : db'.OneOwner := by
  intro ctx hctx
  rw [hcontexts] at hctx
  simp only [hsame]
  exact h ctx hctx

/-- A row that is set at a key without an active owner. -/
theorem activeOwner_set {ctx id : Uuid} {row : MemberRow} (hmembers : db'.members = db.members.set (ctx, id) row)
    (hnot : ¬ db.ActiveOwner ctx id) (hrow : row.role ≠ .owner) (c i : Uuid) :
    db'.ActiveOwner c i ↔ db.ActiveOwner c i := by
  rw [Db.ActiveOwner, hmembers, InsertionMap.get?_set]
  split_ifs with hkey
  · obtain ⟨rfl, rfl⟩ := Prod.mk.inj hkey
    apply iff_of_false
    · rintro ⟨m, hm, howner, -⟩
      obtain rfl := Option.some.inj hm
      exact hrow howner
    · exact hnot
  · rfl

/-- Enrolling keeps one owner in every context. -/
theorem enrols_oneOwner (h : Enrols db db') (hdb : Enrolled db) (hone : db.OneOwner) : db'.OneOwner := by
  have hfresh : ∀ {ctx id}, (ctx, id) ∉ db.members.keys → ¬ db.ActiveOwner ctx id :=
    fun hmember ⟨m, hm, _⟩ => hmember (InsertionMap.mem_keys_of_get? hm)
  cases h with
  | nobody hcontexts hmembers =>
    apply oneOwner_of_same hone hcontexts
    intro ctx id
    rw [Db.ActiveOwner, hmembers]
    rfl
  | @create ctx member profile kind _ hctx hmember hcontexts hmembers =>
    intro c hc
    rw [hcontexts, InsertionMap.mem_keys_set] at hc
    by_cases hnew : c = ctx
    · -- the creator is the only member of the new context
      subst hnew
      refine ⟨member, ⟨_, by rw [hmembers, InsertionMap.get?_set_self], rfl, rfl⟩, ?_⟩
      rintro id ⟨m, hm, -, -⟩
      rcases get?_members_set hmembers hm with ⟨hkey, -⟩ | ⟨-, hold⟩
      · exact (Prod.mk.inj hkey).2
      · exact absurd (hdb.context hold) hctx
    · obtain ⟨id, hid, honly⟩ := hone c (hc.resolve_left hnew)
      have hsame : ∀ i, db'.ActiveOwner c i ↔ db.ActiveOwner c i := by
        intro i
        rw [Db.ActiveOwner, hmembers, InsertionMap.get?_set_of_ne]
        · rfl
        · exact fun h => hnew (Prod.mk.inj h).1
      exact ⟨id, (hsame id).mpr hid, fun i hi => honly i ((hsame i).mp hi)⟩
  | invite _ hmember _ hcontexts hmembers =>
    apply oneOwner_of_same hone hcontexts
    apply activeOwner_set hmembers (hfresh hmember)
    intro hrole
    cases hrole
  | @answer ctx member m m' hm hinvited _ hrole _ hcontexts hmembers =>
    -- whoever is invited is no owner
    have hnot : m.role ≠ .owner := fun howner => MemberRow.not_joined hinvited (hdb.owner hm howner)
    apply oneOwner_of_same hone hcontexts
    apply activeOwner_set hmembers
    · rintro ⟨n, hn, howner, -⟩
      obtain rfl := Option.some.inj (hn.symm.trans hm)
      exact hnot howner
    · rw [hrole]
      exact hnot

theorem eraseProfile_activeOwner (profile ctx id : Uuid) :
    (db.eraseProfile profile).ActiveOwner ctx id ↔ db.ActiveOwner ctx id := by
  rw [Db.ActiveOwner, Db.eraseProfile, InsertionMap.get?_mapValues, Db.ActiveOwner]
  cases db.members.get? (ctx, id) with
  | none => simp
  | some m => by_cases hprofile : m.profileId = some profile <;> simp [hprofile]

/-! ### Ownership calls -/

/-- Whether a member is an active owner after a call. -/
theorem activeOwner_commit {call : Call} (h : db.commit call = .ok db') (ctx id : Uuid) :
    db'.ActiveOwner ctx id ↔ ∃ m, db.members.get? (ctx, id) = some m ∧
      (if ctx = call.context then call.regroup id m else m).role = .owner ∧
      (if ctx = call.context then call.regroup id m else m).state = .active := by
  rw [Db.ActiveOwner, (commit_committed h).members]
  simp only [Option.map_eq_some_iff]
  constructor
  · rintro ⟨-, ⟨m, hm, rfl⟩, hrole, hstate⟩
    exact ⟨m, hm, hrole, hstate⟩
  · rintro ⟨m, hm, hrole, hstate⟩
    exact ⟨_, ⟨m, hm, rfl⟩, hrole, hstate⟩

/-- A call leaves the owners of other contexts as they are. -/
theorem activeOwner_commit_of_ne {call : Call} (h : db.commit call = .ok db') {ctx : Uuid} (hctx : ctx ≠ call.context)
    (id : Uuid) : db'.ActiveOwner ctx id ↔ db.ActiveOwner ctx id := by
  rw [activeOwner_commit h]
  simp only [if_neg hctx]
  rfl

theorem activeOwner_transfer {profile ctx target : Uuid} (h : db.commit (.transfer profile ctx target) = .ok db')
    (id : Uuid) : db'.ActiveOwner ctx id ↔ id = target ∨ ∃ m, db.members.get? (ctx, id) = some m ∧ m.role = .owner ∧
      m.state = .active ∧ m.profileId ≠ some profile := by
  obtain ⟨t, ht, hactive, hother⟩ := (commit_committed h).allowed
  rw [activeOwner_commit h]
  simp only [Call.context, if_true, Call.regroup]
  constructor
  · rintro ⟨m, hm, hrole, hstate⟩
    by_cases hid : id = target
    · exact .inl hid
    · rw [if_neg hid] at hrole
      split_ifs at hrole with hmine
      exact .inr ⟨m, hm, hrole, hstate, hmine⟩
  · rintro (rfl | ⟨m, hm, hrole, hstate, hnot⟩)
    · exact ⟨t, ht, if_pos rfl, hactive⟩
    · refine ⟨m, hm, ?_, hstate⟩
      rw [if_neg hnot, hrole, ite_self]

theorem activeOwner_takeOver {profile ctx me : Uuid} (h : db.commit (.takeOver profile ctx me) = .ok db') (id : Uuid) :
    db'.ActiveOwner ctx id ↔ id = me ∧ ∃ m, db.members.get? (ctx, me) = some m ∧ m.state = .active := by
  rw [activeOwner_commit h]
  simp only [Call.context, if_true, Call.regroup]
  constructor
  · rintro ⟨m, hm, hrole, hstate⟩
    split_ifs at hrole with hid
    subst hid
    exact ⟨rfl, m, hm, hstate⟩
  · rintro ⟨rfl, m, hm, hstate⟩
    exact ⟨m, hm, if_pos rfl, hstate⟩

theorem activeOwner_leave {profile ctx me : Uuid} {role : Role} (h : db.commit (.leave profile ctx me role) = .ok db')
    (id : Uuid) : db'.ActiveOwner ctx id ↔ id ≠ me ∧ db.ActiveOwner ctx id := by
  rw [activeOwner_commit h]
  simp only [Call.context, if_true, Call.regroup]
  by_cases hid : id = me
  · simp [hid]
  · simp [hid, Db.ActiveOwner]

/-- A call keeps one owner exactly if what it has read is true. -/
theorem commit_oneOwner_iff {call : Call} (h : db.commit call = .ok db') (hone : db.OneOwner) :
    db'.OneOwner ↔ db.StillHolds call := by
  have hctx := (commit_committed h).context
  have hcontexts := (commit_committed h).contexts
  -- only the context of the call matters
  have hcontext : db'.OneOwner ↔ ∃! id, db'.ActiveOwner call.context id := by
    constructor
    · intro hone'
      exact hone' call.context (hcontexts ▸ hctx)
    · intro hcall ctx hmem
      by_cases hsame : ctx = call.context
      · rw [hsame]
        exact hcall
      · simp only [activeOwner_commit_of_ne h hsame]
        exact hone ctx (hcontexts ▸ hmem)
  rw [hcontext]
  cases call with
  | transfer profile ctx target =>
    simp only [Call.context, activeOwner_transfer h]
    constructor
    · rintro ⟨owner, -, honly⟩ id m hm hrole hstate
      by_cases hmine : m.profileId = some profile
      · exact .inr hmine
      · -- an owner that the caller is not stays, beside the target
        left
        rw [honly id (.inr ⟨m, hm, hrole, hstate, hmine⟩), honly target (.inl rfl)]
    · intro hholds
      refine ⟨target, .inl rfl, ?_⟩
      rintro id (rfl | ⟨m, hm, hrole, hstate, hnot⟩)
      · rfl
      · exact (hholds id m hm hrole hstate).resolve_right hnot
  | takeOver profile ctx me =>
    simp only [Call.context, activeOwner_takeOver h]
    constructor
    · rintro ⟨-, ⟨-, hme⟩, -⟩
      exact hme
    · intro hme
      exact ⟨me, ⟨rfl, hme⟩, fun id hid => hid.1⟩
  | leave profile ctx me role =>
    simp only [Call.context, activeOwner_leave h]
    obtain ⟨owner, howner, honly⟩ := hone ctx hctx
    constructor
    · rintro ⟨other, ⟨hne, hother⟩, -⟩ hme
      -- there was one owner, so it cannot be both the one that is left and the one that stays
      exact hne ((honly other hother).trans (honly me hme).symm)
    · intro hnot
      refine ⟨owner, ⟨?_, howner⟩, fun id hid => honly id hid.2⟩
      rintro rfl
      exact hnot howner

end Owners

/-- A call that is committed is the one that waits at its place, and leads to the state that it computes. -/
theorem System.Commits.step_eq {s : System} {move : Move} {call : Call} (h : s.Commits move call) :
    s.db.commit call = .ok (s.step move).2.db ∧ ∀ other, s.Commits move other → other = call := by
  obtain ⟨i, db', rfl, hcall, hcommit⟩ := h
  constructor
  · simp only [System.step, hcall, hcommit]
  · rintro other ⟨j, db'', hmove, hother, -⟩
    obtain rfl := Move.commit.inj hmove
    exact Option.some.inj (hother.symm.trans hcall)

/-- A move keeps one owner exactly if the call that it commits, if any, finds true what it has read. -/
theorem step_oneOwner_iff (s : System) (move : Move) (hdb : Enrolled s.db) (hone : s.db.OneOwner) :
    (s.step move).2.db.OneOwner ↔ ∀ call, s.Commits move call → s.db.StillHolds call := by
  by_cases hcommits : ∃ call, s.Commits move call
  · obtain ⟨call, hcall⟩ := hcommits
    obtain ⟨hcommit, honly⟩ := hcall.step_eq
    rw [commit_oneOwner_iff hcommit hone]
    constructor
    · intro hholds other hother
      rw [honly other hother]
      exact hholds
    · intro h
      exact h call hcall
  · -- nothing is committed, so there is one owner as before
    apply iff_of_true
    · have hregroups := step_regroups s move
      generalize (s.step move).2 = s' at hregroups
      cases hregroups with
      | enrols henrols => exact enrols_oneOwner henrols hdb hone
      | waits => exact hone
      | commits hcall hcommit => exact absurd ⟨_, _, _, rfl, hcall, hcommit⟩ hcommits
      | fails => exact hone
      | erases => exact oneOwner_of_same hone rfl fun ctx id => eraseProfile_activeOwner _ ctx id
    · intro call hcall
      exact absurd ⟨call, hcall⟩ hcommits

theorem oneOwner_initial : Db.initial.OneOwner := by
  intro ctx hctx
  cases hctx

/-- In every run each context has one owner at any time exactly if every ownership call that is committed finds true
what it has read before it waited. -/
theorem oneOwner_iff_of_run (moves : List Move) :
    (∀ e ∈ trace System.step System.initial moves, e.after.db.OneOwner) ↔
      ∀ e ∈ trace System.step System.initial moves, ∀ call, e.before.Commits e.call call →
        e.before.db.StillHolds call :=
  forall_trace_iff (P := fun s : System => s.db.OneOwner)
    sound_initial oneOwner_initial (fun move s => step_sound s move) fun move s hs hone =>
      step_oneOwner_iff s move hs.rows hone

/-! ### Calls that nothing interrupts -/

/-- An ownership call that gets the lock at once, or a move that is no part of such a call. -/
inductive Turn where
  | ownership (profile : Uuid) (request : OwnershipRequest)
  | other (move : Move) (hbegin : ∀ profile request, move ≠ .begin profile request) (hcommit : ∀ i, move ≠ .commit i)

def Turn.moves : Turn → List Move
  | .ownership profile request => [.begin profile request, .commit 0]
  | .other move _ _ => [move]

/-- The calls that wait change at ownership calls only. -/
theorem step_waiting (s : System) {move : Move} (hbegin : ∀ profile request, move ≠ .begin profile request)
    (hcommit : ∀ i, move ≠ .commit i) : (s.step move).2.waiting = s.waiting := by
  have hregroups := step_regroups s move
  generalize (s.step move).2 = s' at hregroups
  cases hregroups with
  | enrols => rfl
  | waits => exact absurd rfl (hbegin _ _)
  | commits => exact absurd rfl (hcommit _)
  | fails => exact absurd rfl (hcommit _)
  | erases => rfl

/-- What a call reads holds when it has read it, if it goes on to be committed. -/
theorem stillHolds_of_begin {db db' : Db} {profile : Uuid} {request : OwnershipRequest} {call : Call}
    (h : db.begin profile request = .ok call) (hcommit : db.commit call = .ok db') (hone : db.OneOwner) :
    db.StillHolds call := by
  have hcommitted := commit_committed hcommit
  cases request with
  | transfer ctx target =>
    simp only [Db.begin, Db.beginTransfer, ↓failIf_bind_eq_ok, bind_eq_ok, pure_eq_ok, Except.ok.injEq,
      Bool.not_eq_false] at h
    obtain ⟨-, -, -, -, howner, rfl⟩ := h
    obtain ⟨⟨⟨c, caller⟩, mine⟩, hmem, hcaller⟩ := List.any_eq_true.mp howner
    simp only [Bool.and_eq_true, decide_eq_true_eq] at hcaller
    obtain ⟨rfl, hmine, hrole, hactive⟩ := hcaller
    have hcaller : db.ActiveOwner c caller := ⟨mine, InsertionMap.get?_eq_some_iff.mpr hmem, hrole, hactive⟩
    intro id m hm hrole' hactive'
    -- the caller is the only owner
    obtain ⟨owner, -, honly⟩ := hone c hcommitted.context
    have hid : id = caller := (honly id ⟨m, hm, hrole', hactive'⟩).trans (honly caller hcaller).symm
    subst hid
    obtain rfl := Option.some.inj (hm.symm.trans (InsertionMap.get?_eq_some_iff.mpr hmem))
    exact .inr hmine
  | takeOver ctx =>
    simp only [Db.begin, Db.beginTakeOver, bind_eq_ok, pure_eq_ok, Except.ok.injEq] at h
    obtain ⟨-, -, -, -, me, hme, rfl⟩ := h
    obtain ⟨hm, -, hactive⟩ := activeMember_eq_ok hme
    exact ⟨me.2, hm, hactive⟩
  | leave ctx =>
    simp only [Db.begin, Db.beginLeave, bind_eq_ok, pure_eq_ok, Except.ok.injEq] at h
    obtain ⟨-, -, -, -, me, hme, rfl⟩ := h
    obtain ⟨hm, -, -⟩ := activeMember_eq_ok hme
    rintro ⟨m, hm', hrole, -⟩
    obtain rfl := Option.some.inj (hm.symm.trans hm')
    exact hcommitted.allowed.1 hrole

/-- A turn keeps one owner, and leaves no call waiting. -/
theorem turn_oneOwner (turn : Turn) (s : System) (hwaiting : s.waiting = []) (hdb : Enrolled s.db)
    (hone : s.db.OneOwner) :
    (final System.step s turn.moves).waiting = [] ∧ Enrolled (final System.step s turn.moves).db ∧
      (final System.step s turn.moves).db.OneOwner := by
  have hexpects : s.db.Expects s.waiting := by
    rw [hwaiting]
    intro call h
    cases h
  cases turn with
  | ownership profile request =>
    simp only [Turn.moves, final, System.step]
    cases hbegin : s.db.begin profile request with
    | error e =>
      simp only [hwaiting, List.getElem?_nil]
      exact ⟨trivial, hdb, hone⟩
    | ok call =>
      simp only [hwaiting, List.nil_append, List.getElem?_cons_zero, List.eraseIdx_cons_zero]
      cases hcommit : s.db.commit call with
      | error e => exact ⟨rfl, hdb, hone⟩
      | ok db' =>
        refine ⟨rfl, commit_enrolled hcommit hdb (begin_expects hbegin), ?_⟩
        exact (commit_oneOwner_iff hcommit hone).mpr (stillHolds_of_begin hbegin hcommit hone)
  | other move hbegin hcommit =>
    simp only [Turn.moves, final]
    refine ⟨(step_waiting s hbegin hcommit).trans hwaiting, (step_sound s move ⟨hdb, hexpects⟩).rows, ?_⟩
    apply (step_oneOwner_iff s move hdb hone).mpr
    rintro call ⟨i, -, rfl, -⟩
    exact absurd rfl (hcommit i)

/-- Ownership calls that nothing interrupts keep one owner in every context, whatever happens between them. -/
theorem oneOwner_of_turns (turns : List Turn) :
    (final System.step System.initial (turns.flatMap Turn.moves)).db.OneOwner := by
  suffices h : ∀ s : System, s.waiting = [] → Enrolled s.db → s.db.OneOwner →
      (final System.step s (turns.flatMap Turn.moves)).db.OneOwner from
    h System.initial rfl enrolled_initial oneOwner_initial
  induction turns with
  | nil => exact fun s _ _ hone => hone
  | cons turn turns ih =>
    intro s hwaiting hdb hone
    rw [List.flatMap_cons, final_append]
    obtain ⟨hwaiting', hdb', hone'⟩ := turn_oneOwner turn s hwaiting hdb hone
    exact ih _ hwaiting' hdb' hone'

end PandaPay.SharedExpenses.Sql
