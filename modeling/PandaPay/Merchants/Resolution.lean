import PandaPay.Library.Best
import PandaPay.Library.ParentLinks
import PandaPay.Merchants.Directory

/-!
# Both resolvers find the same merchant

The longest key wins, and among keys of one length the slug that is first. So the merchant does not depend on the
order of the directory, and the server and the phone find the same one, with the same parents.

## Main definitions

* `IsLineage`: a merchant and the merchants above it

## Main results

* `merchant_resolution`: the order of the directory, the lineage, and both resolvers
-/

namespace PandaPay.Merchants

open PortableBackup (jsTrim isJsWhiteSpace)

/-! ### Text -/

/-- A letter or a digit is no white space. -/
theorem isWordUnit_of_space {c : CodeUnit} (h : isWhiteSpace c = true) : isWordUnit c = false := by
  simp only [isWhiteSpace, isWordUnit, decide_eq_true_eq, List.mem_cons, List.not_mem_nil,
    or_false, decide_eq_false_iff_not] at h ⊢
  omega

/-- What is left of a text: its letters and digits, and spaces. -/
theorem mem_replaceRuns {inRun : Bool} {s : JsString} {c : CodeUnit} (h : c ∈ replaceRuns inRun s) :
    (c ∈ s ∧ isWordUnit c = true) ∨ c = 32 := by
  induction s generalizing inRun with
  | nil => cases h
  | cons d s ih =>
    have hrest : ∀ {inRun}, c ∈ replaceRuns inRun s → (c ∈ d :: s ∧ isWordUnit c = true) ∨ c = 32 := fun h =>
      (ih h).imp_left fun hc => ⟨List.mem_cons_of_mem _ hc.1, hc.2⟩
    unfold replaceRuns at h
    split_ifs at h with hd
    · rcases List.mem_cons.mp h with rfl | h
      · exact .inl ⟨List.mem_cons_self, hd⟩
      · exact hrest h
    · exact hrest h
    · rcases List.mem_cons.mp h with rfl | h
      · exact .inr rfl
      · exact hrest h

section Trim

variable {p q : CodeUnit → Bool} {s : JsString}

theorem dropWhile_congr (h : ∀ c ∈ s, p c = q c) : s.dropWhile p = s.dropWhile q := by
  induction s with
  | nil => rfl
  | cons c s ih =>
    rw [List.dropWhile_cons, List.dropWhile_cons, h c List.mem_cons_self,
      ih fun d hd => h d (List.mem_cons_of_mem _ hd)]

theorem trim_eq_nil_iff : (s.dropWhile p).rdropWhile p = [] ↔ ∀ c ∈ s, p c = true := by
  rw [List.rdropWhile_eq_nil_iff, ← List.dropWhile_eq_nil_iff, List.dropWhile_idempotent,
    List.dropWhile_eq_nil_iff]

/-- A trimmed text that is not empty is no white space. -/
theorem trim_eq_nil_of_forall (h : ∀ c ∈ (s.dropWhile p).rdropWhile p, p c = true) :
    (s.dropWhile p).rdropWhile p = [] := by
  by_contra hne
  exact List.rdropWhile_last_not p _ hne (h _ (List.getLast_mem hne))

end Trim

/-- Letters and spaces are trimmed alike. -/
theorem jsTrim_replaceRuns (s : JsString) : jsTrim (replaceRuns false s) = trim (replaceRuns false s) := by
  have hsame : ∀ c ∈ replaceRuns false s, isJsWhiteSpace c = isWhiteSpace c := by
    intro c hc
    rcases mem_replaceRuns hc with ⟨-, hword⟩ | rfl
    · have hno : isWhiteSpace c = false := by
        by_contra hspace
        rw [isWordUnit_of_space (Bool.not_eq_false _ ▸ hspace)] at hword
        cases hword
      simp [isJsWhiteSpace, hno]
    · decide
  unfold jsTrim trim
  rw [dropWhile_congr hsame]
  congr 1
  refine dropWhile_congr fun c hc => hsame c ?_
  exact (List.dropWhile_sublist _).subset (List.mem_reverse.mp hc)

variable {toLowerCase : JsString → JsString}

theorem normalize_some (text : JsString) :
    normalize toLowerCase (some text) = Dart.normalizeMerchantText toLowerCase text := jsTrim_replaceRuns _

/-- A normalized text with spaces around it is white space only where it is empty. -/
theorem trim_spaced_iff (text : JsString) :
    trim (js " " ++ Dart.normalizeMerchantText toLowerCase text ++ js " ") = [] ↔
      Dart.normalizeMerchantText toLowerCase text = [] := by
  have hspace : js " " = [32] := by decide
  constructor
  · intro h
    refine trim_eq_nil_of_forall fun c hc => trim_eq_nil_iff.mp h c ?_
    exact List.mem_append_left _ (List.mem_append_right _ hc)
  · intro h
    rw [h, hspace]
    decide

/-- Normalized white space is empty. -/
theorem normalize_of_space (hspace : ∀ s, (∀ c ∈ s, isJsWhiteSpace c = true) → toLowerCase s = s) {vpa : JsString}
    (h : jsTrim vpa = []) : Dart.normalizeMerchantText toLowerCase (beforeAt vpa) = [] := by
  have hall : ∀ c ∈ vpa, isJsWhiteSpace c = true := trim_eq_nil_iff.mp h
  have hbefore : beforeAt vpa = vpa := if_neg fun hat => absurd (hall 64 hat) (by decide)
  refine trim_eq_nil_iff.mpr fun c hc => ?_
  rw [hbefore, hspace vpa hall] at hc
  rcases mem_replaceRuns hc with ⟨hmem, hword⟩ | rfl
  · have hwhite : isWhiteSpace c = true := (Bool.and_eq_true_iff.mp (hall c hmem)).1
    rw [isWordUnit_of_space hwhite] at hword
    cases hword
  · decide

/-! ### The best key -/

/-- The longest key first, then the first slug. -/
def rank (a : Entry) : ℕᵒᵈ ×ₗ JsString := toLex (OrderDual.toDual a.key.length, a.slug)

/-- And then the first key. -/
def Dart.rank (a : Entry) : ℕᵒᵈ ×ₗ JsString ×ₗ JsString :=
  toLex (OrderDual.toDual a.key.length, toLex (a.slug, a.key))

/-- The first of the best entries, by a rank. -/
def bestBy {β : Type} [LinearOrder β] (rank : Entry → β) (l : List Entry) : Option Entry :=
  best (fun a b => cmp (rank a) (rank b)) l

theorem rank_lt_iff (a b : Entry) :
    rank a < rank b ↔ b.key.length < a.key.length ∨ (a.key.length = b.key.length ∧ a.slug < b.slug) :=
  Prod.Lex.toLex_lt_toLex

theorem Dart.rank_lt_iff (a b : Entry) :
    Dart.rank a < Dart.rank b ↔ b.key.length < a.key.length ∨
      (a.key.length = b.key.length ∧ (a.slug < b.slug ∨ (a.slug = b.slug ∧ a.key < b.key))) := by
  unfold Dart.rank
  rw [Prod.Lex.toLex_lt_toLex, Prod.Lex.toLex_lt_toLex]
  rfl

theorem better_some (a b : Entry) : better a (some b) = true ↔ rank a < rank b := by
  rw [rank_lt_iff]
  simp only [better]
  split_ifs with h
  · rw [decide_eq_true_iff]
    exact ⟨.inl, fun hor => hor.resolve_right fun heq => h heq.1⟩
  · rw [decide_eq_true_iff]
    push Not at h
    exact ⟨fun hlt => .inr ⟨h, hlt⟩, fun hor => (hor.resolve_left (by omega)).2⟩

theorem pick_eq (isMatch : Entry → Bool) (index : List Entry) :
    pick isMatch index = bestBy rank (index.filter isMatch) := by
  unfold pick bestBy best
  rw [List.foldl_filter]
  congr 1
  funext b entry
  cases isMatch entry with
  | false => rfl
  | true =>
    cases b with
    | none => rfl
    | some b => simp [better_some]

theorem Dart.best_eq (candidates : List Entry) : Dart.best candidates = bestBy Dart.rank candidates := by
  unfold Dart.best bestBy PandaPay.best
  congr 1
  funext b c
  cases b with
  | none => rfl
  | some b => simp only [cmp_eq_lt_iff, Dart.rank_lt_iff]

/-- The order of equal keys of one merchant does not matter: both find the same merchant. -/
theorem bestBy_slug_eq (l : List Entry) :
    (bestBy rank l).map Entry.slug = (bestBy Dart.rank l).map Entry.slug := by
  cases hserver : bestBy rank l with
  | none =>
    have hnil := (best_eq_none_iff (rankedBy_cmp rank)).mp hserver
    rw [hnil]
    rfl
  | some b =>
    obtain ⟨hb, hfirst⟩ := best_eq_some (rankedBy_cmp rank) hserver
    cases hphone : bestBy Dart.rank l with
    | none =>
      rw [(best_eq_none_iff (rankedBy_cmp Dart.rank)).mp hphone] at hb
      cases hb
    | some b' =>
      obtain ⟨hb', hfirst'⟩ := best_eq_some (rankedBy_cmp Dart.rank) hphone
      have hle := not_lt.mpr (hfirst b' hb')
      have hle' := not_lt.mpr (hfirst' b hb)
      rw [rank_lt_iff] at hle
      rw [Dart.rank_lt_iff] at hle'
      push Not at hle hle'
      have hlength : b.key.length = b'.key.length := le_antisymm hle'.1 hle.1
      have hslug := le_antisymm (hle.2 hlength.symm) (hle'.2 hlength).1
      exact congrArg some hslug

/-- The merchant of the best entry does not depend on the order of the entries. -/
theorem bestBy_slug_perm {l l' : List Entry} (h : l.Perm l') :
    (bestBy rank l).map Entry.slug = (bestBy rank l').map Entry.slug :=
  best_map_congr (rankedBy_cmp rank) (fun _ => h.mem_iff) fun _ _ _ _ hrank =>
    congrArg (fun r => (ofLex r).2) hrank

/-! ### The candidates -/

theorem rows_eq (merchants : List Merchant) : merchants.filter (fun m => m.slug ≠ []) = merchants :=
  List.filter_eq_self.mpr fun m _ => by simpa using m.slug_ne_nil

theorem candidatesOf_eq (texts : Merchant → List JsString) (merchants : List Merchant) :
    entriesOf toLowerCase texts (merchants.filter fun m => m.slug ≠ []) =
      Dart.candidatesOf toLowerCase texts merchants := by
  have hactive : (fun m : Merchant => decide (m.isActive ≠ some false)) = fun m => m.isActive.getD true := by
    funext m
    rcases m.isActive with _ | _ | _ <;> rfl
  unfold entriesOf Dart.candidatesOf
  rw [rows_eq, hactive, List.filter_flatMap]
  simp only [normalize_some]

theorem candidatesOf_perm (texts : Merchant → List JsString) {merchants merchants' : List Merchant}
    (h : merchants.Perm merchants') :
    (Dart.candidatesOf toLowerCase texts merchants).Perm (Dart.candidatesOf toLowerCase texts merchants') :=
  ((h.filter _).flatMap_right _).filter _

/-- The server's merchant of a UPI address is the phone's. -/
theorem resolveVpa_slug (hspace : ∀ s, (∀ c ∈ s, isJsWhiteSpace c = true) → toLowerCase s = s)
    (merchants : List Merchant) (vpa : Option JsString) :
    (resolveVpa toLowerCase (loadDirectory toLowerCase merchants) vpa).map Entry.slug =
      (Dart.bestVpa toLowerCase merchants vpa).map Entry.slug := by
  cases vpa with
  | none => rfl
  | some vpa =>
    simp only [resolveVpa, Dart.bestVpa, loadDirectory, normalize_some, candidatesOf_eq, pick_eq, Dart.best_eq]
    by_cases htrim : jsTrim vpa = []
    · rw [if_pos htrim, if_pos (normalize_of_space hspace htrim)]
    · rw [if_neg htrim]
      split_ifs
      · rfl
      · exact bestBy_slug_eq _

/-- The loop over the aliases. -/
def resolveName (toLowerCase : JsString → JsString) (directory : Directory) (name : Option JsString) : Option Entry :=
  if normalize toLowerCase name = [] then none
  else pick (fun entry => hasWords (normalize toLowerCase name) entry.key) directory.aliasIndex

/-- The server's merchant of a name is the phone's. -/
theorem resolveName_slug (hspace : ∀ s, (∀ c ∈ s, isJsWhiteSpace c = true) → toLowerCase s = s)
    (merchants : List Merchant) (name : Option JsString) :
    (resolveName toLowerCase (loadDirectory toLowerCase merchants) name).map Entry.slug =
      (Dart.bestAlias toLowerCase merchants name).map Entry.slug := by
  cases name with
  | none =>
    have hempty : normalize toLowerCase none = [] := by
      rw [normalize, Option.getD_none, hspace [] fun _ h => absurd h List.not_mem_nil]
      rfl
    rw [resolveName, if_pos hempty]
    rfl
  | some name =>
    simp only [resolveName, Dart.bestAlias, loadDirectory, normalize_some, candidatesOf_eq, pick_eq, Dart.best_eq,
      trim_spaced_iff]
    split_ifs
    · rfl
    · exact bestBy_slug_eq _

theorem bestVpa_perm {merchants merchants' : List Merchant} (h : merchants.Perm merchants') (vpa : Option JsString) :
    (Dart.bestVpa toLowerCase merchants vpa).map Entry.slug =
      (Dart.bestVpa toLowerCase merchants' vpa).map Entry.slug := by
  cases vpa with
  | none => rfl
  | some vpa =>
    simp only [Dart.bestVpa, Dart.best_eq]
    split_ifs
    · rfl
    · rw [← bestBy_slug_eq, ← bestBy_slug_eq]
      exact bestBy_slug_perm ((candidatesOf_perm _ h).filter _)

theorem bestAlias_perm {merchants merchants' : List Merchant} (h : merchants.Perm merchants')
    (name : Option JsString) :
    (Dart.bestAlias toLowerCase merchants name).map Entry.slug =
      (Dart.bestAlias toLowerCase merchants' name).map Entry.slug := by
  cases name with
  | none => rfl
  | some name =>
    simp only [Dart.bestAlias, Dart.best_eq]
    split_ifs
    · rfl
    · rw [← bestBy_slug_eq, ← bestBy_slug_eq]
      exact bestBy_slug_perm ((candidatesOf_perm _ h).filter _)

/-- A merchant of an address comes before one of a name. -/
def found (vpa name : Option JsString) : Option (JsString × Via) :=
  (vpa.map fun slug => (slug, Via.vpa)).or (name.map fun slug => (slug, Via.«alias»))

theorem resolveMerchant_found (directory : Directory) (name vpa : Option JsString) :
    ((resolveMerchant toLowerCase directory name vpa).map fun hit => (hit.slug, hit.via)) =
      found ((resolveVpa toLowerCase directory vpa).map Entry.slug)
        ((resolveName toLowerCase directory name).map Entry.slug) := by
  unfold resolveMerchant resolveName found
  cases resolveVpa toLowerCase directory vpa with
  | some b => rfl
  | none =>
    dsimp only
    split_ifs
    · rfl
    · simp [Function.comp_def]

theorem Dart.resolve_found (merchants : List Merchant) (name vpa : Option JsString) :
    ((Dart.resolve toLowerCase merchants name vpa).map fun m => (m.slug, m.source)) =
      found ((Dart.bestVpa toLowerCase merchants vpa).map Entry.slug)
        ((Dart.bestAlias toLowerCase merchants name).map Entry.slug) := by
  unfold Dart.resolve found
  cases Dart.bestVpa toLowerCase merchants vpa with
  | some b => rfl
  | none => simp [Function.comp_def]

/-! ### The lineage -/

/-- The parent that a merchant declares. -/
def parentOf (bySlug : InsertionMap JsString Merchant) (slug : JsString) : Option JsString :=
  ((bySlug.get? slug).bind Merchant.parentSlug).filter (· ≠ [])

/-- A merchant and the merchants above it, the nearest first, as far as five parents and no circle. -/
structure IsLineage (bySlug : InsertionMap JsString Merchant) (slug : JsString) (lineage : List JsString) : Prop where
  head : lineage.head? = some slug
  nodup : lineage.Nodup
  length_le : lineage.length ≤ 6
  /-- Each is the parent of the one before it. -/
  chain : lineage.IsChain fun a b => parentOf bySlug a = some b
  /-- It goes on until there is no parent, or it is in a circle. -/
  complete : lineage.length = 6 ∨
    ∀ last ∈ lineage.getLast?, ∀ parent, parentOf bySlug last = some parent → parent ∈ lineage

section Lineage

variable (bySlug : InsertionMap JsString Merchant)

/-- The parent of a walk that goes on. -/
theorem parentOf_eq (slug : JsString) :
    parentOf bySlug slug =
      ((bySlug.get? slug).bind Merchant.parentSlug).bind fun parent => if parent = [] then none else some parent := by
  unfold parentOf
  cases (bySlug.get? slug).bind Merchant.parentSlug with
  | none => rfl
  | some parent => by_cases h : parent = [] <;> simp [h]

/-- The walk marks a parent and goes on from it. -/
theorem trail_parentOf {levels : ℕ} {marked : List JsString} {parent : JsString} (h : parent ∉ marked) :
    trail (fun k => some (parentOf bySlug k)) id (levels + 1) marked (some parent) =
      parent :: trail (fun k => some (parentOf bySlug k)) id levels (marked ++ [parent]) (parentOf bySlug parent) := by
  refine (@trail_of_find _ _ _ (fun k => some (parentOf bySlug k)) id parent _ marked h rfl levels).trans ?_
  exact congrArg (parent :: ·) (trail_congr (fun k => by simp [or_comm]) _ _)

theorem ancestorsFrom_eq (levels : ℕ) (seen : List JsString) (slug : JsString) :
    ancestorsFrom bySlug levels seen (bySlug.get? slug) =
      trail (fun k => some (parentOf bySlug k)) id levels seen (parentOf bySlug slug) := by
  induction levels generalizing seen slug with
  | zero => rfl
  | succ levels ih =>
    rw [parentOf_eq, ancestorsFrom.eq_def]
    cases bySlug.get? slug with
    | none => rfl
    | some current =>
      cases hparent : current.parentSlug with
      | none => simp [hparent, trail]
      | some parent =>
        by_cases hempty : parent = []
        · simp [hparent, hempty, trail]
        by_cases hseen : parent ∈ seen
        · simp [hparent, hempty, hseen, trail_of_mem]
        · simp [hparent, hempty, hseen, trail_parentOf, ih]

theorem lineageFrom_eq (levels : ℕ) (out : List JsString) (slug : JsString) :
    Dart.lineageFrom bySlug levels out (bySlug.get? slug) =
      out ++ trail (fun k => some (parentOf bySlug k)) id levels out (parentOf bySlug slug) := by
  induction levels generalizing out slug with
  | zero => simp [Dart.lineageFrom, trail]
  | succ levels ih =>
    rw [parentOf_eq, Dart.lineageFrom]
    cases hparent : (bySlug.get? slug).bind Merchant.parentSlug with
    | none => simp [trail]
    | some parent =>
      by_cases hempty : parent = []
      · simp [hempty, trail]
      by_cases hseen : parent ∈ out
      · simp [hempty, hseen, trail_of_mem]
      · simp [hempty, hseen, trail_parentOf, ih]

/-- The server's walk finds the same parents. -/
theorem lineage_eq (merchants : List Merchant) (slug : JsString) :
    Dart.lineage merchants slug = slug :: ancestorsFrom (indexBy Merchant.slug id merchants) maxAncestorDepth [slug]
      ((indexBy Merchant.slug id merchants).get? slug) := by
  rw [ancestorsFrom_eq]
  exact lineageFrom_eq _ _ _ _

theorem isLineage (merchants : List Merchant) (slug : JsString) :
    IsLineage (indexBy Merchant.slug id merchants) slug (Dart.lineage merchants slug) := by
  have hchain := @isChain_trail _ _ _ (fun k => some (parentOf (indexBy Merchant.slug id merchants) k)) id
    maxAncestorDepth [slug] slug _ rfl
  have hend := @trail_end _ _ _ (fun k => some (parentOf (indexBy Merchant.slug id merchants) k)) id
    maxAncestorDepth [slug] slug _ rfl
  rw [lineage_eq, ancestorsFrom_eq]
  refine ⟨rfl, List.nodup_cons.mpr ⟨fun h => ?_, nodup_trail _ _ _⟩, ?_, hchain, ?_⟩
  · exact (above_of_mem_trail h).1 (List.mem_singleton_self slug)
  · exact Nat.succ_le_succ (length_trail_le _ _ _)
  · refine hend.imp (fun h => congrArg (· + 1) h) ?_
    intro h last hlast parent hparent
    rcases h last hlast parent hparent with hnone | hmem | hmem
    · cases hnone
    · rw [List.mem_singleton.mp hmem]
      exact List.mem_cons_self
    · exact List.mem_cons_of_mem _ hmem

/-- With distinct slugs the lineage does not depend on the order of the directory. -/
theorem lineage_perm {merchants merchants' : List Merchant} (h : merchants.Perm merchants')
    (hslugs : (merchants.map Merchant.slug).Nodup) (slug : JsString) :
    Dart.lineage merchants slug = Dart.lineage merchants' slug := by
  have hget : (indexBy Merchant.slug id merchants).get? = (indexBy Merchant.slug id merchants').get? :=
    funext fun k => get?_indexBy_perm h
      (fun a ha b hb hkey => List.inj_on_of_nodup_map hslugs ha hb hkey) k
  have hparent : parentOf (indexBy Merchant.slug id merchants) = parentOf (indexBy Merchant.slug id merchants') := by
    funext k
    rw [parentOf, parentOf, hget]
  rw [lineage_eq, lineage_eq, ancestorsFrom_eq, ancestorsFrom_eq, hparent]

end Lineage

/-! ### The resolvers -/

theorem Dart.lineage_of_resolve {merchants : List Merchant} {name vpa : Option JsString} {m : Dart.MerchantMatch}
    (h : Dart.resolve toLowerCase merchants name vpa = some m) : m.lineage = Dart.lineage merchants m.slug := by
  unfold Dart.resolve at h
  cases hvpa : Dart.bestVpa toLowerCase merchants vpa with
  | some b =>
    rw [hvpa] at h
    rw [← Option.some.inj h]
  | none =>
    rw [hvpa] at h
    obtain ⟨b, -, rfl⟩ := Option.map_eq_some_iff.mp h
    rfl

theorem merchantChain_eq (merchants : List Merchant) (name vpa : Option JsString) :
    merchantChain toLowerCase merchants name vpa =
      (((resolveMerchant toLowerCase (loadDirectory toLowerCase merchants) name vpa).map Hit.slug).map
        (Dart.lineage merchants)).getD [] := by
  unfold merchantChain
  dsimp only
  cases resolveMerchant toLowerCase (loadDirectory toLowerCase merchants) name vpa with
  | none => rfl
  | some hit =>
    simp only [Option.map_some, Option.getD_some, lineage_eq, ancestors, loadDirectory, rows_eq]

section Resolution

variable (hspace : ∀ s, (∀ c ∈ s, isJsWhiteSpace c = true) → toLowerCase s = s)
include hspace

/-- Both resolvers find the same merchant in the same way. -/
theorem resolve_eq (merchants : List Merchant) (name vpa : Option JsString) :
    ((resolveMerchant toLowerCase (loadDirectory toLowerCase merchants) name vpa).map fun hit =>
        (hit.slug, hit.via)) =
      (Dart.resolve toLowerCase merchants name vpa).map fun m => (m.slug, m.source) := by
  rw [resolveMerchant_found, Dart.resolve_found, resolveVpa_slug hspace, resolveName_slug hspace]

omit hspace in
/-- The order of the directory does not matter. -/
theorem Dart.resolve_perm {merchants merchants' : List Merchant} (h : merchants.Perm merchants')
    (name vpa : Option JsString) :
    ((Dart.resolve toLowerCase merchants' name vpa).map fun m => (m.slug, m.source)) =
      (Dart.resolve toLowerCase merchants name vpa).map fun m => (m.slug, m.source) := by
  rw [Dart.resolve_found, Dart.resolve_found, bestVpa_perm h, bestAlias_perm h]

/-- Both resolvers find the same merchant with the same lineage, whatever the order of the directory; with distinct
slugs the lineage does not depend on it either. The lineage begins with the merchant, has no slug twice and at most
six of them, and goes on from parent to parent until there is none, or it is in a circle. -/
theorem merchant_resolution {merchants merchants' : List Merchant} (hperm : merchants.Perm merchants')
    (name vpa : Option JsString) :
    ((resolveMerchant toLowerCase (loadDirectory toLowerCase merchants') name vpa).map fun hit =>
        (hit.slug, hit.via)) =
      ((resolveMerchant toLowerCase (loadDirectory toLowerCase merchants) name vpa).map fun hit =>
        (hit.slug, hit.via)) ∧
    ((Dart.resolve toLowerCase merchants' name vpa).map fun m => (m.slug, m.source)) =
      ((Dart.resolve toLowerCase merchants name vpa).map fun m => (m.slug, m.source)) ∧
    (∀ m ∈ Dart.resolve toLowerCase merchants name vpa,
      IsLineage (indexBy Merchant.slug id merchants) m.slug m.lineage) ∧
    merchantChain toLowerCase merchants name vpa =
      ((Dart.resolve toLowerCase merchants name vpa).map Dart.MerchantMatch.lineage).getD [] ∧
    ((merchants.map Merchant.slug).Nodup →
      merchantChain toLowerCase merchants' name vpa = merchantChain toLowerCase merchants name vpa) := by
  have hserver : ((resolveMerchant toLowerCase (loadDirectory toLowerCase merchants') name vpa).map fun hit =>
      (hit.slug, hit.via)) = (resolveMerchant toLowerCase (loadDirectory toLowerCase merchants) name vpa).map
        fun hit => (hit.slug, hit.via) := by
    rw [resolve_eq hspace, resolve_eq hspace, Dart.resolve_perm hperm]
  refine ⟨hserver, Dart.resolve_perm hperm name vpa, fun m hm => ?_, ?_, fun hslugs => ?_⟩
  · rw [Dart.lineage_of_resolve hm]
    exact isLineage merchants m.slug
  · have hslug := congrArg (Option.map Prod.fst) (resolve_eq hspace merchants name vpa)
    rw [Option.map_map, Option.map_map] at hslug
    rw [merchantChain_eq]
    refine congrArg (Option.getD · []) ?_
    refine (congrArg (Option.map (Dart.lineage merchants)) hslug).trans ?_
    cases hresolve : Dart.resolve toLowerCase merchants name vpa with
    | none => rfl
    | some m => exact congrArg some (Dart.lineage_of_resolve hresolve).symm
  · have hslug := congrArg (Option.map Prod.fst) hserver
    rw [Option.map_map, Option.map_map] at hslug
    rw [merchantChain_eq, merchantChain_eq, show Dart.lineage merchants' = Dart.lineage merchants from
      funext fun slug => (lineage_perm hperm hslugs slug).symm]
    exact congrArg (fun slug => (Option.map (Dart.lineage merchants) slug).getD []) hslug

end Resolution

/-- Two merchants that are each the parent of the other, with an alias of one length. -/
def circular : List Merchant :=
  [{ slug := js "swiggy", slug_ne_nil := by decide, parentSlug := some (js "instamart"), aliases := [js "BUNDL"] },
   { slug := js "instamart", slug_ne_nil := by decide, parentSlug := some (js "swiggy"), aliases := [js "Insta"] }]

theorem lower_of_space (s : JsString) (h : ∀ c ∈ s, isJsWhiteSpace c = true) :
    s.map PortableBackup.lowerUnit = s := by
  have hkeep : ∀ c ∈ s, PortableBackup.lowerUnit c = id c := by
    intro c hc
    have hwhite : isWhiteSpace c = true := (Bool.and_eq_true_iff.mp (h c hc)).1
    simp only [isWhiteSpace, decide_eq_true_eq, List.mem_cons, List.not_mem_nil, or_false] at hwhite
    exact if_neg (by omega)
  rw [List.map_congr_left hkeep, List.map_id]

theorem merchant_resolution_circular :
    merchantChain (List.map PortableBackup.lowerUnit) circular (some (js "Insta by BUNDL")) none =
      ((Dart.resolve (List.map PortableBackup.lowerUnit) circular (some (js "Insta by BUNDL")) none).map
        Dart.MerchantMatch.lineage).getD [] :=
  (merchant_resolution lower_of_space (.refl circular) _ _).2.2.2.1

example : merchantChain (List.map PortableBackup.lowerUnit) circular (some (js "Insta by BUNDL")) none =
    [js "instamart", js "swiggy"] := by decide +kernel

end PandaPay.Merchants
