import PandaPay.SharedExpenses.Sql.Runs

/-!
# Members over time

Members are enrolled by the requests that one step carries out, and change hands by the ownership calls that wait for a
lock. What the schema demands of a member by its keys holds at any time: its context is there, and no profile is two
members of one context. An owner has joined, and so has the member that a waiting call makes an owner.

## Main definitions

* `Regroups`: what a move does to the contexts, their members and the calls that wait
* `Enrolled`, `System.Sound`: what the rows of `members` obey, and the calls that wait
* `Db.Continues`: the states that members can get into

## Main results

* `step_regroups`: every move does what `Regroups` says
* `members_sound_of_run`: every state of a run is sound
* `members_continue`: in every run members only go on, and who has left or declined never comes back
-/

namespace PandaPay.SharedExpenses.Sql

/-! ### What a move does to the members -/

/-- What a move does to the contexts, their members and the calls that wait. -/
inductive Regroups : Move → System → System → Prop where
  | enrols {move : Move} {s : System} {db' : Db} (henrols : Enrols s.db db')
      (hprofiles : ∀ p ∈ s.db.profiles, p ∈ db'.profiles) : Regroups move s { s with db := db' }
  | waits {s : System} {profile : Uuid} {request : OwnershipRequest} {call : Call}
      (hbegin : s.db.begin profile request = .ok call) :
      Regroups (.begin profile request) s { s with waiting := s.waiting ++ [call] }
  | commits {s : System} {i : ℕ} {call : Call} {db' : Db} (hcall : s.waiting[i]? = some call)
      (hcommit : s.db.commit call = .ok db') : Regroups (.commit i) s ⟨db', s.waiting.eraseIdx i⟩
  | fails {s : System} {i : ℕ} {call : Call} {e : SqlError} (hcall : s.waiting[i]? = some call)
      (hcommit : s.db.commit call = .error e) : Regroups (.commit i) s ⟨s.db, s.waiting.eraseIdx i⟩
  | erases {s : System} {profile : Uuid} :
      Regroups (.erase profile) s { s with db := s.db.eraseProfile profile }

theorem Regroups.refl (move : Move) (s : System) : Regroups move s s := .enrols (.nobody rfl rfl) fun _ hp => hp

/-- A request leaves the profiles as they are. -/
theorem profiles_of_request {db db' : Db} {profile : Uuid} {request : Request}
    (h : db.request profile request = .ok db') : db'.profiles = db.profiles := by
  obtain ⟨mid, hrecords, hposts⟩ := request_writes h
  have hmid : db'.profiles = mid.profiles := by
    cases hposts <;> rfl
  rw [hmid]
  cases hrecords with
  | people _ _ hprofiles => exact hprofiles
  | propose => rfl
  | decide => rfl
  | report => rfl

/-- A request enrols whom it records. -/
theorem enrols_of_request {db db' : Db} {profile : Uuid} {request : Request}
    (h : db.request profile request = .ok db') : Enrols db db' := by
  obtain ⟨mid, hrecords, hposts⟩ := request_writes h
  have hmid : db'.contexts = mid.contexts ∧ db'.members = mid.members := by
    cases hposts <;> exact ⟨rfl, rfl⟩
  cases hrecords with
  | people _ henrols =>
    cases henrols with
    | nobody hcontexts hmembers => exact .nobody (hmid.1.trans hcontexts) (hmid.2.trans hmembers)
    | create hprofile hctx hmember hcontexts hmembers =>
      exact .create hprofile hctx hmember (hmid.1.trans hcontexts) (hmid.2.trans hmembers)
    | invite hctx hmember htarget hcontexts hmembers =>
      exact .invite hctx hmember htarget (hmid.1.trans hcontexts) (hmid.2.trans hmembers)
    | answer hm hinvited hanswered hrole hprofile hcontexts hmembers =>
      exact .answer hm hinvited hanswered hrole hprofile (hmid.1.trans hcontexts) (hmid.2.trans hmembers)
  | propose => exact .nobody hmid.1 hmid.2
  | decide => exact .nobody hmid.1 hmid.2
  | report => exact .nobody hmid.1 hmid.2

/-- Every move does what `Regroups` says. -/
theorem step_regroups (s : System) (move : Move) : Regroups move s (s.step move).2 := by
  cases move with
  | request profile request =>
    simp only [System.step]
    split
    next db' h => exact .enrols (enrols_of_request h) fun p hp => profiles_of_request h ▸ hp
    next => exact .refl _ _
  | begin profile request =>
    simp only [System.step]
    split
    next call h => exact .waits h
    next => exact .refl _ _
  | commit i =>
    simp only [System.step]
    split
    next call hcall =>
      split
      next db' h => exact .commits hcall h
      next e h => exact .fails hcall h
    next => exact .refl _ _
  | configure settings => exact .enrols (.nobody rfl rfl) fun _ hp => hp
  | signUp profile =>
    refine .enrols (.nobody rfl rfl) fun p hp => ?_
    simp only [Db.signUp]
    split
    · exact hp
    · exact List.mem_append_left _ hp
  | erase profile => exact .erases

/-- The caller's row is an active one. -/
theorem activeMember_eq_ok {db : Db} {ctx profile : Uuid} {me : Uuid × MemberRow}
    (h : db.activeMember ctx profile = .ok me) :
    db.members.get? (ctx, me.1) = some me.2 ∧ me.2.profileId = some profile ∧ me.2.state = .active := by
  rw [Db.activeMember, Db.memberOf] at h
  split at h
  next found hfound =>
    obtain ⟨hactive, rfl⟩ := failIf_bind_eq_ok.mp h |>.imp_right Except.ok.inj
    obtain ⟨⟨⟨c, id⟩, m⟩, hfind, rfl⟩ := Option.map_eq_some_iff.mp hfound
    have hmine := List.find?_some hfind
    rw [decide_eq_true_eq] at hmine
    obtain ⟨rfl, hprofile⟩ := hmine
    exact ⟨InsertionMap.get?_eq_some_iff.mpr (List.mem_of_find?_eq_some hfind), hprofile, not_not.mp hactive⟩
  next => cases h

/-! ### What the rows of members obey -/

/-- Whether a member has ever been active: it is, or it has left. -/
def MemberRow.Joined (m : MemberRow) : Prop := m.state = .active ∨ m.state = .left

theorem MemberRow.not_joined {m : MemberRow} (h : m.state = .invited) : ¬ m.Joined := by
  simp [MemberRow.Joined, h]

/-- What the rows of `members` obey. -/
structure Enrolled (db : Db) : Prop where
  context : ∀ {ctx id m}, db.members.get? (ctx, id) = some m → ctx ∈ db.contexts.keys
  /-- `UNIQUE (context_id, profile_id)`. -/
  unique : ∀ {ctx id id' m m' profile}, db.members.get? (ctx, id) = some m → db.members.get? (ctx, id') = some m' →
    m.profileId = some profile → m'.profileId = some profile → id = id'
  owner : ∀ {ctx id m}, db.members.get? (ctx, id) = some m → m.role = .owner → m.Joined
  /-- `REFERENCES profiles`. -/
  profile : ∀ {ctx id m profile}, db.members.get? (ctx, id) = some m → m.profileId = some profile →
    profile ∈ db.profiles

/-- The members whose rows waiting calls have read have joined. -/
def Db.Expects (db : Db) (waiting : List Call) : Prop :=
  ∀ call ∈ waiting, ∀ me, call.me = some me → ∃ m, db.members.get? (call.context, me) = some m ∧ m.Joined

/-- What the rows of members obey, and the calls that wait. -/
structure System.Sound (s : System) : Prop where
  rows : Enrolled s.db
  calls : s.db.Expects s.waiting

theorem enrolled_initial : Enrolled Db.initial := by
  constructor <;> simp [Db.initial]

theorem sound_initial : System.initial.Sound := ⟨enrolled_initial, fun _ h => by cases h⟩

section Enrolled

variable {db db' : Db}

/-- A row that is set at one key, and what is there at another. -/
theorem get?_members_set {key : Uuid × Uuid} {row m : MemberRow} {ctx id : Uuid}
    (hmembers : db'.members = db.members.set key row) (h : db'.members.get? (ctx, id) = some m) :
    (ctx, id) = key ∧ m = row ∨ (ctx, id) ≠ key ∧ db.members.get? (ctx, id) = some m := by
  rw [hmembers, InsertionMap.get?_set] at h
  split_ifs at h with hkey
  · exact .inl ⟨hkey, (Option.some.inj h).symm⟩
  · exact .inr ⟨hkey, h⟩

/-- A member is set that is the only one of its profile, and an owner only when it has joined. -/
theorem enrolled_set (hdb : Enrolled db) (hprofiles : ∀ p ∈ db.profiles, p ∈ db'.profiles) {ctx id : Uuid}
    {row : MemberRow}
    (hcontexts : ∀ c, c ∈ db'.contexts.keys ↔ c ∈ db.contexts.keys ∨ c = ctx)
    (hmembers : db'.members = db.members.set (ctx, id) row)
    (hunique : ∀ profile, row.profileId = some profile → ∀ other m, other ≠ id →
      db.members.get? (ctx, other) = some m → m.profileId ≠ some profile)
    (howner : row.role = .owner → row.Joined)
    (hprofile : ∀ profile, row.profileId = some profile → profile ∈ db.profiles) : Enrolled db' where
  context hm := by
    rw [hcontexts]
    rcases get?_members_set hmembers hm with ⟨hkey, -⟩ | ⟨-, hm⟩
    · exact .inr (Prod.mk.inj hkey).1
    · exact .inl (hdb.context hm)
  unique {c a b m n profile} hm hn hmine hyours := by
    rcases get?_members_set hmembers hm with ⟨hkey, rfl⟩ | ⟨hne, hm⟩ <;>
      rcases get?_members_set hmembers hn with ⟨hkey', rfl⟩ | ⟨hne', hn⟩
    · exact (Prod.mk.inj (hkey.trans hkey'.symm)).2
    · obtain ⟨rfl, rfl⟩ := Prod.mk.inj hkey
      have hother : b ≠ a := fun h => hne' (by rw [h])
      exact absurd hyours (hunique profile hmine b n hother hn)
    · obtain ⟨rfl, rfl⟩ := Prod.mk.inj hkey'
      have hother : a ≠ b := fun h => hne (by rw [h])
      exact absurd hmine (hunique profile hyours a m hother hm)
    · exact hdb.unique hm hn hmine hyours
  owner hm hrole := by
    rcases get?_members_set hmembers hm with ⟨-, rfl⟩ | ⟨-, hm⟩
    · exact howner hrole
    · exact hdb.owner hm hrole
  profile hm hmine := by
    apply hprofiles
    rcases get?_members_set hmembers hm with ⟨-, rfl⟩ | ⟨-, hm⟩
    · exact hprofile _ hmine
    · exact hdb.profile hm hmine

/-- Enrolling keeps what the rows obey. -/
theorem enrols_enrolled (h : Enrols db db') (hprofiles : ∀ p ∈ db.profiles, p ∈ db'.profiles) (hdb : Enrolled db) :
    Enrolled db' := by
  cases h with
  | nobody hcontexts hmembers =>
    constructor
    · rw [hcontexts, hmembers]
      exact hdb.context
    · rw [hmembers]
      exact hdb.unique
    · rw [hmembers]
      exact hdb.owner
    · rw [hmembers]
      exact fun hm hmine => hprofiles _ (hdb.profile hm hmine)
  | create hprofile hctx _ hcontexts hmembers =>
    apply enrolled_set hdb hprofiles (fun c => ?_) hmembers
    · -- nobody is a member of a context that is not there
      intro profile _ other m _ hm
      exact absurd (hdb.context hm) hctx
    · exact fun _ => .inl rfl
    · intro p hp
      rw [← Option.some.inj hp]
      exact hprofile
    · rw [hcontexts, InsertionMap.mem_keys_set, or_comm]
  | @invite ctx member target hctx _ htarget hcontexts hmembers =>
    apply enrolled_set hdb hprofiles (fun c => ?_) hmembers
    · intro profile hprofile other m _ hm
      exact (htarget profile hprofile).2 other m hm
    · intro hrole
      cases hrole
    · exact fun profile hprofile => (htarget profile hprofile).1
    · rw [hcontexts]
      exact ⟨.inl, fun h => h.elim id fun h => h ▸ hctx⟩
  | @answer ctx member m m' hm hinvited _ hrole hprofile hcontexts hmembers =>
    apply enrolled_set hdb hprofiles (fun c => ?_) hmembers
    · intro profile hmine other n hne hn hyours
      rcases hprofile with hsame | ⟨-, profile', hprofile', -, hothers⟩
      · exact hne (hdb.unique hn hm hyours (hsame ▸ hmine))
      · rw [hprofile', Option.some.injEq] at hmine
        exact hothers other n hne hn (hmine ▸ hyours)
    · intro howner
      exact absurd (hdb.owner hm (hrole ▸ howner)) (MemberRow.not_joined hinvited)
    · intro profile hmine
      rcases hprofile with hsame | ⟨-, profile', hprofile', hknown, -⟩
      · exact hdb.profile hm (hsame ▸ hmine)
      · rw [hprofile', Option.some.injEq] at hmine
        exact hmine ▸ hknown
    · rw [hcontexts]
      exact ⟨.inl, fun h => h.elim id fun h => h ▸ hdb.context hm⟩

/-- A member of the context of a call that is committed, or of another one. -/
theorem get?_members_commit {call : Call} (h : db.commit call = .ok db') {ctx id : Uuid} {m' : MemberRow}
    (hm' : db'.members.get? (ctx, id) = some m') :
    ∃ m, db.members.get? (ctx, id) = some m ∧ m' = if ctx = call.context then call.regroup id m else m := by
  rw [(commit_committed h).members, Option.map_eq_some_iff] at hm'
  obtain ⟨m, hm, rfl⟩ := hm'
  exact ⟨m, hm, rfl⟩

theorem Joined.regroup {m : MemberRow} (h : m.Joined) (call : Call) (id : Uuid) : (call.regroup id m).Joined := by
  rcases regroup_state call id m with hstate | ⟨-, hleft⟩
  · rw [MemberRow.Joined, hstate]
    exact h
  · exact .inr hleft

/-- A call keeps what the rows obey, if the member that it makes an owner has joined. -/
theorem commit_enrolled {call : Call} (h : db.commit call = .ok db') (hdb : Enrolled db) (hjoined : db.Expects [call]) :
    Enrolled db' := by
  have hcommitted := commit_committed h
  constructor
  · intro ctx id m' hm'
    obtain ⟨m, hm, -⟩ := get?_members_commit h hm'
    rw [hcommitted.contexts]
    exact hdb.context hm
  · intro ctx id id' m n profile hm hn hmine hyours
    obtain ⟨old, hold, rfl⟩ := get?_members_commit h hm
    obtain ⟨old', hold', rfl⟩ := get?_members_commit h hn
    rw [apply_ite MemberRow.profileId, regroup_profileId, ite_self] at hmine hyours
    exact hdb.unique hold hold' hmine hyours
  · intro ctx id m' hm' hrole
    obtain ⟨m, hm, rfl⟩ := get?_members_commit h hm'
    split_ifs at hrole ⊢ with hctx
    · apply Joined.regroup
      by_cases howner : m.role = .owner
      · exact hdb.owner hm howner
      -- a member that was no owner is the one that the call makes an owner
      · cases call with
        | transfer profile ctx' target =>
          obtain ⟨t, ht, hactive, -⟩ := hcommitted.allowed
          simp only [Call.regroup] at hrole
          split_ifs at hrole with hid
          · subst hid hctx
            obtain rfl := Option.some.inj (hm.symm.trans ht)
            exact .inl hactive
          · exact absurd hrole howner
        | takeOver profile ctx' me =>
          obtain ⟨n, hn, hnJoined⟩ := hjoined _ (List.mem_singleton.mpr rfl) me rfl
          simp only [Call.regroup] at hrole
          split_ifs at hrole with hid
          subst hid hctx
          obtain rfl := Option.some.inj (hm.symm.trans hn)
          exact hnJoined
        | leave profile ctx' me role =>
          simp only [Call.regroup] at hrole
          split_ifs at hrole
          · exact absurd hrole howner
          · exact absurd hrole howner
    · exact hdb.owner hm hrole
  · intro ctx id m' profile hm' hmine
    obtain ⟨m, hm, rfl⟩ := get?_members_commit h hm'
    rw [apply_ite MemberRow.profileId, regroup_profileId, ite_self] at hmine
    rw [hcommitted.profiles]
    exact hdb.profile hm hmine

theorem eraseProfile_enrolled (profile : Uuid) (hdb : Enrolled db) : Enrolled (db.eraseProfile profile) := by
  have hget : ∀ {key m'}, (db.eraseProfile profile).members.get? key = some m' → ∃ m, db.members.get? key = some m ∧
      m'.role = m.role ∧ m'.state = m.state ∧ ∀ p, m'.profileId = some p → m.profileId = some p ∧ p ≠ profile := by
    intro key m' hm'
    rw [Db.eraseProfile, InsertionMap.get?_mapValues, Option.map_eq_some_iff] at hm'
    obtain ⟨m, hm, rfl⟩ := hm'
    refine ⟨m, hm, ?_⟩
    split
    next => exact ⟨rfl, rfl, fun _ h => by cases h⟩
    next hother =>
      refine ⟨rfl, rfl, fun p hp => ⟨hp, ?_⟩⟩
      rintro rfl
      exact hother hp
  constructor
  · intro ctx id m' hm'
    obtain ⟨m, hm, -⟩ := hget hm'
    exact hdb.context hm
  · intro ctx id id' m' n' p hm' hn' hmine hyours
    obtain ⟨m, hm, -, -, hp⟩ := hget hm'
    obtain ⟨n, hn, -, -, hp'⟩ := hget hn'
    exact hdb.unique hm hn (hp p hmine).1 (hp' p hyours).1
  · intro ctx id m' hm' hrole
    obtain ⟨m, hm, hrole', hstate, -⟩ := hget hm'
    rw [MemberRow.Joined, hstate]
    exact hdb.owner hm (hrole' ▸ hrole)
  · intro ctx id m' p hm' hmine
    obtain ⟨m, hm, -, -, hp⟩ := hget hm'
    obtain ⟨hmine, hne⟩ := hp p hmine
    exact List.mem_filter.mpr ⟨hdb.profile hm hmine, by simpa using hne⟩

/-! ### Runs -/

/-- A member that has joined stays so. -/
theorem expects_of_joined {waiting : List Call} (h : db.Expects waiting)
    (hkept : ∀ {key m}, db.members.get? key = some m → m.Joined → ∃ m', db'.members.get? key = some m' ∧ m'.Joined) :
    db'.Expects waiting := by
  intro call hcall me hme
  obtain ⟨m, hm, hjoined⟩ := h call hcall me hme
  exact hkept hm hjoined

/-- Enrolling leaves a member as it is, unless it is invited and answers. -/
theorem enrols_row (h : Enrols db db') {key : Uuid × Uuid} {m : MemberRow} (hm : db.members.get? key = some m) :
    db'.members.get? key = some m ∨ m.state = .invited ∧ ∃ n, db'.members.get? key = some n ∧
      (n.state = .active ∨ n.state = .declined) := by
  cases h with
  | nobody _ hmembers => exact .inl (by rw [hmembers, hm])
  | create _ _ hmember _ hmembers => exact .inl (by rw [hmembers, get?_set_of_fresh hmember hm])
  | invite _ hmember _ _ hmembers => exact .inl (by rw [hmembers, get?_set_of_fresh hmember hm])
  | @answer ctx member invited n hinvitee hinvited hanswered _ _ _ hmembers =>
    rw [hmembers]
    by_cases hkey : key = (ctx, member)
    · subst hkey
      obtain rfl := Option.some.inj (hm.symm.trans hinvitee)
      exact .inr ⟨hinvited, n, InsertionMap.get?_set_self _ _ _, hanswered⟩
    · exact .inl (by rw [InsertionMap.get?_set_of_ne _ _ hkey, hm])

/-- Enrolling changes nobody who has joined. -/
theorem enrols_joined (h : Enrols db db') {key : Uuid × Uuid} {m : MemberRow} (hm : db.members.get? key = some m)
    (hjoined : m.Joined) : db'.members.get? key = some m := by
  rcases enrols_row h hm with hsame | ⟨hinvited, -⟩
  · exact hsame
  · exact absurd hjoined (MemberRow.not_joined hinvited)

/-- The caller's member that a call reads has joined. -/
theorem begin_expects {profile : Uuid} {request : OwnershipRequest} {call : Call}
    (h : db.begin profile request = .ok call) : db.Expects [call] := by
  intro call' hcall me hme
  rw [List.mem_singleton] at hcall
  subst hcall
  cases request with
  | transfer ctx target =>
    simp only [Db.begin, Db.beginTransfer, ↓failIf_bind_eq_ok, bind_eq_ok, pure_eq_ok, Except.ok.injEq] at h
    obtain ⟨-, -, -, -, -, rfl⟩ := h
    cases hme
  | takeOver ctx =>
    simp only [Db.begin, Db.beginTakeOver, bind_eq_ok, pure_eq_ok, Except.ok.injEq] at h
    obtain ⟨-, -, -, -, row, hrow, rfl⟩ := h
    obtain rfl := Option.some.inj hme
    obtain ⟨hm, -, hactive⟩ := activeMember_eq_ok hrow
    exact ⟨row.2, hm, .inl hactive⟩
  | leave ctx =>
    simp only [Db.begin, Db.beginLeave, bind_eq_ok, pure_eq_ok, Except.ok.injEq] at h
    obtain ⟨-, -, -, -, row, hrow, rfl⟩ := h
    obtain rfl := Option.some.inj hme
    obtain ⟨hm, -, hactive⟩ := activeMember_eq_ok hrow
    exact ⟨row.2, hm, .inl hactive⟩

/-- Every move keeps what the rows obey, and what waits. -/
theorem step_sound (s : System) (move : Move) (h : s.Sound) : (s.step move).2.Sound := by
  obtain ⟨hdb, hwaiting⟩ := h
  have hregroups := step_regroups s move
  generalize (s.step move).2 = s' at hregroups
  have herased : ∀ {i}, s.db.Expects (s.waiting.eraseIdx i) :=
    fun call hcall => hwaiting call (List.mem_of_mem_eraseIdx hcall)
  cases hregroups with
  | enrols henrols hprofiles =>
    refine ⟨enrols_enrolled henrols hprofiles hdb, expects_of_joined hwaiting fun hm hjoined => ?_⟩
    exact ⟨_, enrols_joined henrols hm hjoined, hjoined⟩
  | waits hbegin =>
    refine ⟨hdb, fun call hcall => ?_⟩
    rcases List.mem_append.mp hcall with hold | hnew
    · exact hwaiting call hold
    · exact begin_expects hbegin call hnew
  | @commits _ i call db' hcall hcommit =>
    have hmem : call ∈ s.waiting := List.mem_of_getElem? hcall
    have hcall : s.db.Expects [call] := fun other hother => hwaiting other (List.mem_singleton.mp hother ▸ hmem)
    refine ⟨commit_enrolled hcommit hdb hcall, expects_of_joined herased fun {key m} hm hjoined => ?_⟩
    · obtain ⟨c, id⟩ := key
      rw [(commit_committed hcommit).members, hm]
      refine ⟨_, rfl, ?_⟩
      split_ifs
      · exact Joined.regroup hjoined call id
      · exact hjoined
  | fails => exact ⟨hdb, herased⟩
  | @erases _ profile =>
    refine ⟨eraseProfile_enrolled profile hdb, expects_of_joined hwaiting fun {key m} hm hjoined => ?_⟩
    rw [Db.eraseProfile, InsertionMap.get?_mapValues, hm, Option.map_some]
    refine ⟨_, rfl, ?_⟩
    split_ifs
    · exact hjoined
    · exact hjoined

end Enrolled

/-- What the rows of members obey holds in every state of a run. -/
theorem members_sound_of_run (moves : List Move) : (final System.step System.initial moves).Sound :=
  invariant_of_final sound_initial fun move _ s => step_sound s move

/-! ### States over time -/

/-- The states that a member in this state can be in later on. -/
def MemberState.later : MemberState → List MemberState
  | .invited => [.invited, .active, .declined, .left]
  | .active => [.active, .left]
  | .declined => [.declined]
  | .left => [.left]
  | .erased => [.erased]

theorem MemberState.mem_later_self (state : MemberState) : state ∈ state.later := by
  cases state <;> decide

theorem MemberState.mem_later_trans {a b c : MemberState} (h : b ∈ a.later) (h' : c ∈ b.later) : c ∈ a.later := by
  cases a <;> cases b <;> cases c <;> revert h h' <;> decide

/-- The members are there still, in a state that follows the old one. Whoever has joined keeps its profile, or has none
any more. -/
def Db.Continues (db db' : Db) : Prop :=
  ∀ key m, db.members.get? key = some m → ∃ m', db'.members.get? key = some m' ∧ m'.state ∈ m.state.later ∧
    (m.Joined → m'.profileId = m.profileId ∨ m'.profileId = none)

section Continues

variable {db db' db'' : Db}

theorem Db.Continues.of_eq (h : db'.members = db.members) : db.Continues db' := by
  intro key m hm
  exact ⟨m, by rw [h, hm], m.state.mem_later_self, fun _ => .inl rfl⟩

theorem Db.Continues.trans (h : db.Continues db') (h' : db'.Continues db'') : db.Continues db'' := by
  intro key m hm
  obtain ⟨m', hm', hstate, hprofile⟩ := h key m hm
  obtain ⟨m'', hm'', hstate', hprofile'⟩ := h' key m' hm'
  refine ⟨m'', hm'', MemberState.mem_later_trans hstate hstate', fun hjoined => ?_⟩
  have hjoined' : m'.Joined := by
    rcases hjoined with h | h <;> rw [h] at hstate
    · simpa [MemberState.later, MemberRow.Joined] using hstate
    · exact .inr (by simpa [MemberState.later] using hstate)
  rcases hprofile' hjoined' with hsame | hnone
  · rw [hsame]
    exact hprofile hjoined
  · exact .inr hnone

theorem enrols_continues (h : Enrols db db') : db.Continues db' := by
  intro key m hm
  rcases enrols_row h hm with hsame | ⟨hinvited, n, hn, hanswered⟩
  · exact ⟨m, hsame, m.state.mem_later_self, fun _ => .inl rfl⟩
  · refine ⟨n, hn, ?_, fun hjoined => absurd hjoined (MemberRow.not_joined hinvited)⟩
    rcases hanswered with h | h <;> rw [hinvited, h] <;> decide

/-- Members go on at every move, if the callers that wait have joined. -/
theorem step_continues (s : System) (move : Move) (hwaiting : s.db.Expects s.waiting) :
    s.db.Continues (s.step move).2.db := by
  have hregroups := step_regroups s move
  generalize (s.step move).2 = s' at hregroups
  cases hregroups with
  | enrols henrols => exact enrols_continues henrols
  | waits => exact .of_eq rfl
  | fails => exact .of_eq rfl
  | @commits _ _ call db' hcall hcommit =>
    rintro ⟨ctx, id⟩ m hm
    refine ⟨_, ((commit_committed hcommit).members ctx id).trans (by rw [hm, Option.map_some]), ?_, fun _ => .inl ?_⟩
    · split_ifs with hctx
      · rcases regroup_state call id m with hstate | ⟨hme, hleft⟩
        · rw [hstate]
          exact m.state.mem_later_self
        · -- the caller had joined when the call read its row
          obtain ⟨n, hn, hjoined⟩ := hwaiting call (List.mem_of_getElem? hcall) id hme
          obtain rfl := Option.some.inj ((hctx ▸ hm).symm.trans hn)
          rw [hleft]
          rcases hjoined with h | h <;> rw [h] <;> decide
      · exact m.state.mem_later_self
    · rw [apply_ite MemberRow.profileId, regroup_profileId, ite_self]
  | erases =>
    intro key m hm
    refine ⟨_, (InsertionMap.get?_mapValues _ _ _).trans (by rw [hm, Option.map_some]), ?_, fun _ => ?_⟩
    · split_ifs
      · exact m.state.mem_later_self
      · exact m.state.mem_later_self
    · split_ifs
      · exact .inr rfl
      · exact .inl rfl

end Continues

/-- In every run members only go on: whoever has left or declined never comes back, and nobody else takes the place of a
member that has joined. -/
theorem members_continue (earlier later : List Move) :
    (final System.step System.initial earlier).db.Continues
      (final System.step System.initial (earlier ++ later)).db := by
  rw [final_append]
  exact related_of_final (R := fun s s' : System => s.db.Continues s'.db) (fun _ => .of_eq rfl) (fun h h' => h.trans h')
    (invariant_of_final sound_initial fun move _ s => step_sound s move)
    fun move _ s hs => ⟨step_sound s move hs, step_continues s move hs.calls⟩

end PandaPay.SharedExpenses.Sql
