import PandaPay.CardRewards.Engine.Limits
import PandaPay.CardRewards.Dart.Transaction
import PandaPay.Library.ParentLinks

/-!
# The caps of a transaction

A transaction counts against the caps that name it and against all those above them. Links to parents may be
missing or go in a circle. The server leaves out caps that it cannot enforce, though not those above them; the phone
does so in its next step.

## Main definitions

* `Counted`: what a transaction counts against, for both engines
* `enforced`: a cap in native units, if it can be enforced
* `SameCap`: a cap as each of the engines reads it

## Main results

* `applicableCaps_closed`: the walks over the parents end, and find exactly these caps
-/

namespace PandaPay.CardRewards

/-- A cap counts a transaction, or is above one that does. -/
def Counted {γ : Type} (key : γ → JsString) (parentCapId : γ → Option JsString) (counts : γ → Bool) (caps : List γ)
    (cap : γ) : Prop :=
  ∃ direct ∈ caps, counts direct = true ∧ Relation.ReflTransGen (ParentRow key parentCapId caps) direct cap

/-- What is found in a table of caps with distinct ids. -/
theorem get?_indexBy_iff {γ : Type} {key : γ → JsString} {caps : List γ} (hids : (caps.map key).Nodup)
    (k : JsString) (cap : γ) : (indexBy key id caps).get? k = some cap ↔ cap ∈ caps ∧ key cap = k := by
  constructor
  · intro h
    obtain ⟨a, ha, hkey, rfl⟩ := exists_of_get?_indexBy h
    exact ⟨ha, hkey⟩
  · rintro ⟨hcap, rfl⟩
    refine get?_indexBy_of_mem hcap fun b hb hkey => ?_
    rw [List.inj_on_of_nodup_map hids hb hcap hkey]

/-- A key of the table is that of one of its caps. -/
theorem mem_ids_of_isSome {γ : Type} {key : γ → JsString} {caps : List γ} {k : JsString}
    (h : ((indexBy key id caps).get? k).isSome) : k ∈ caps.map key := by
  obtain ⟨cap, hcap⟩ := Option.isSome_iff_exists.mp h
  obtain ⟨a, ha, rfl, -⟩ := exists_of_get?_indexBy hcap
  exact List.mem_map_of_mem ha

/-- The ids that are reached from the caps that count a transaction are those of the caps it counts against. -/
theorem exists_above_iff {γ : Type} {key : γ → JsString} {up : γ → Option JsString} {counts : γ → Bool}
    {caps : List γ} (hids : (caps.map key).Nodup) {cap : γ} (hcap : cap ∈ caps) :
    (∃ k ∈ (caps.filter counts).map key, Above (indexBy key id caps).get? up k (key cap)) ↔
      Counted key up counts caps cap := by
  constructor
  · rintro ⟨k, hk, habove⟩
    obtain ⟨direct, hdirect, rfl⟩ := List.mem_map.mp hk
    obtain ⟨hmem, hcounts⟩ := List.mem_filter.mp hdirect
    obtain ⟨b, hb, hkey, hrows⟩ := (above_iff (get?_indexBy_iff hids) hmem).mp habove
    rw [List.inj_on_of_nodup_map hids hb hcap hkey] at hrows
    exact ⟨direct, hmem, hcounts, hrows⟩
  · rintro ⟨direct, hmem, hcounts, hrows⟩
    refine ⟨key direct, List.mem_map_of_mem (List.mem_filter.mpr ⟨hmem, hcounts⟩), ?_⟩
    exact (above_iff (get?_indexBy_iff hids) hmem).mpr ⟨cap, hcap, rfl, hrows⟩

/-! ### The server -/

/-- A cap in native units, if it can be enforced as it is written. -/
def enforced (card : Card) (rule : RewardRule) (cap : CapRule) : Option AppliedCap :=
  if Named.isOther cap.scope then none else (normalizeCap cap rule card).toOption

theorem addParents_eq {caps : List CapRule} (steps : ℕ) (chosen : List JsString) (parent : Option JsString) :
    addParents (indexBy CapRule.id id caps) steps chosen parent =
      chosen ++ trail (indexBy CapRule.id id caps).get? CapRule.parentCapId steps chosen parent := by
  induction steps generalizing chosen parent with
  | zero => simp [addParents, trail]
  | succ steps ih =>
    cases parent with
    | none => simp [addParents, trail]
    | some k =>
      cases hcap : (indexBy CapRule.id id caps).get? k with
      | none => simp [addParents, trail, hcap]
      | some cap =>
        have hkey : cap.id = k := key_of_get?_indexBy CapRule.id hcap
        by_cases hk : k ∈ chosen
        · simp [addParents, trail, hcap, hkey, hk]
        · have hsame : ∀ i, i ∈ chosen ++ [k] ↔ i ∈ k :: chosen := fun i => by simp [or_comm]
          have hstep : addParents (indexBy CapRule.id id caps) (steps + 1) chosen (some k) =
              addParents (indexBy CapRule.id id caps) steps (chosen ++ [k]) cap.parentCapId := by
            simp [addParents, hcap, hkey, hk]
          rw [hstep, ih, trail_of_find hk hcap, trail_congr hsame]
          simp

theorem chosenCaps_eq (caps : List CapRule) (ruleId categoryId : Option JsString) :
    chosenCaps caps ruleId categoryId = withParents (indexBy CapRule.id id caps).get? CapRule.parentCapId caps.length
      ((caps.filter fun cap => cap.counts ruleId categoryId).map CapRule.id) := by
  unfold chosenCaps withParents
  dsimp only
  congr 1
  funext chosen k
  exact addParents_eq _ _ _

theorem mem_chosenCaps_iff {caps : List CapRule} (hids : (caps.map CapRule.id).Nodup)
    {ruleId categoryId : Option JsString} {cap : CapRule} (hcap : cap ∈ caps) :
    cap.id ∈ chosenCaps caps ruleId categoryId ↔
      Counted CapRule.id CapRule.parentCapId (fun cap => cap.counts ruleId categoryId) caps cap := by
  rw [chosenCaps_eq, mem_withParents_iff (fun _ => mem_ids_of_isSome) (by rw [List.length_map]),
    exists_above_iff hids hcap]

theorem applicableCaps_caps (card : Card) (caps : List CapRule) (rule : RewardRule) (categoryId : Option JsString) :
    (applicableCaps card caps rule categoryId).caps =
      (caps.filter fun cap => cap.id ∈ chosenCaps caps rule.id categoryId).filterMap (enforced card rule) := by
  unfold applicableCaps
  dsimp only
  rw [List.filterMap_filter, List.filterMap_filter]
  refine List.filterMap_congr fun cap _ => ?_
  unfold enforced
  by_cases hid : cap.id ∈ chosenCaps caps rule.id categoryId <;> cases Named.isOther cap.scope <;> simp [hid]

/-! ### The phone -/

theorem Dart.capsById_eq {caps : List Dart.CapRule} (hids : (caps.map Dart.CapRule.id).Nodup) :
    Dart.capsById caps = indexBy Dart.CapRule.id id caps := by
  unfold Dart.capsById
  induction caps using List.reverseRecOn with
  | nil => rfl
  | append_singleton caps cap ih =>
    rw [List.map_append, List.nodup_append] at hids
    have hnew : (indexBy Dart.CapRule.id id caps).get? cap.id = none :=
      get?_indexBy_eq_none_iff.mpr fun other hother =>
        hids.2.2 _ (List.mem_map_of_mem hother) _ (by simp)
    rw [List.foldl_append, ih hids.1, indexBy_append_singleton]
    simp [hnew]

theorem Dart.parentsOf_eq (byId : InsertionMap JsString Dart.CapRule) (steps : ℕ) (seen : List JsString)
    (parent : Option JsString) :
    Dart.parentsOf byId steps seen parent = trail byId.get? Dart.CapRule.parentCapId steps seen parent := by
  induction steps generalizing seen parent with
  | zero => rfl
  | succ steps ih =>
    cases parent with
    | none => rfl
    | some k =>
      unfold Dart.parentsOf trail
      split_ifs with hk
      · rfl
      cases byId.get? k with
      | none => rfl
      | some cap => exact congrArg (k :: ·) (ih _ _)

theorem Dart.mem_selected_iff {caps : List Dart.CapRule} (hids : (caps.map Dart.CapRule.id).Nodup)
    {counts : Dart.CapRule → Bool} {cap : Dart.CapRule} (hcap : cap ∈ caps) :
    (cap.id ∈ (caps.filter counts).flatMap fun cap => cap.id :: Dart.parentsOf (Dart.capsById caps)
        (Dart.capsById caps).size [cap.id] cap.parentCapId) ↔
      Counted Dart.CapRule.id Dart.CapRule.parentCapId counts caps cap := by
  rw [← exists_above_iff hids hcap, List.mem_flatMap, Dart.capsById_eq hids]
  have hsize : (caps.map Dart.CapRule.id).length ≤ (indexBy Dart.CapRule.id id caps).size := by
    rw [InsertionMap.size, entries_indexBy hids, List.length_map, List.length_map]
  have hwalk : ∀ direct ∈ caps.filter counts,
      (cap.id ∈ direct.id :: Dart.parentsOf (indexBy Dart.CapRule.id id caps) (indexBy Dart.CapRule.id id caps).size
        [direct.id] direct.parentCapId ↔
      Above (indexBy Dart.CapRule.id id caps).get? Dart.CapRule.parentCapId direct.id cap.id) := by
    intro direct hdirect
    have hfind := (get?_indexBy_iff hids direct.id direct).mpr ⟨List.mem_of_mem_filter hdirect, rfl⟩
    rw [Dart.parentsOf_eq, ← mem_trail_iff (fun _ => mem_ids_of_isSome) hsize, hfind]
    rfl
  constructor
  · rintro ⟨direct, hdirect, h⟩
    exact ⟨direct.id, List.mem_map_of_mem hdirect, (hwalk direct hdirect).mp h⟩
  · rintro ⟨k, hk, h⟩
    obtain ⟨direct, hdirect, rfl⟩ := List.mem_map.mp hk
    exact ⟨direct, hdirect, (hwalk direct hdirect).mpr h⟩

theorem Dart.applicableCaps_eq {card : Dart.CardProduct} (hids : (card.capRules.map Dart.CapRule.id).Nodup)
    (ruleId categoryId : Option JsString) :
    Dart.applicableCaps card ruleId categoryId = card.capRules.filter fun cap => cap.id ∈
      (card.capRules.filter fun cap => cap.counts ruleId categoryId).flatMap fun cap =>
        cap.id :: Dart.parentsOf (Dart.capsById card.capRules) (Dart.capsById card.capRules).size [cap.id]
          cap.parentCapId := by
  have hvalues : (Dart.capsById card.capRules).values = card.capRules := by
    rw [Dart.capsById_eq hids, values_indexBy hids, List.map_id]
  unfold Dart.applicableCaps
  dsimp only
  rw [hvalues]

/-! ### Both engines -/

/-- A cap as each of the engines reads it. The phone knows no other scopes: its parser leaves such caps out. -/
structure SameCap (cap : CapRule) (phone : Dart.CapRule) : Prop where
  id : phone.id = cap.id
  rewardRuleId : phone.rewardRuleId = cap.rewardRuleId
  categoryId : phone.categoryId = cap.categoryId
  targets : phone.targets = cap.targets
  parentCapId : phone.parentCapId = cap.parentCapId
  scope : cap.scopeOf = .known phone.scope

section Both

variable {caps : List CapRule} {phones : List Dart.CapRule}

theorem SameCap.counts {cap : CapRule} {phone : Dart.CapRule} (h : SameCap cap phone)
    (ruleId categoryId : Option JsString) : phone.counts ruleId categoryId = cap.counts ruleId categoryId := by
  unfold Dart.CapRule.counts CapRule.counts
  rw [h.scope, h.rewardRuleId, h.categoryId, h.targets]
  cases phone.scope <;> rfl

/-- Conditions that agree leave caps with the same ids. -/
theorem map_id_filter_congr (h : List.Forall₂ SameCap caps phones) {p : CapRule → Bool} {q : Dart.CapRule → Bool}
    (hpq : ∀ cap ∈ caps, ∀ phone ∈ phones, SameCap cap phone → p cap = q phone) :
    (phones.filter q).map Dart.CapRule.id = (caps.filter p).map CapRule.id := by
  induction h with
  | nil => rfl
  | @cons cap phone caps phones hsame _ ih =>
    have hrest := ih fun cap hcap phone hphone =>
      hpq cap (List.mem_cons_of_mem _ hcap) phone (List.mem_cons_of_mem _ hphone)
    have hfirst := hpq cap List.mem_cons_self phone List.mem_cons_self hsame
    rw [List.filter_cons, List.filter_cons, hfirst]
    split_ifs
    · rw [List.map_cons, List.map_cons, hrest, hsame.id]
    · exact hrest

theorem map_id_eq (h : List.Forall₂ SameCap caps phones) : phones.map Dart.CapRule.id = caps.map CapRule.id := by
  induction h with
  | nil => rfl
  | cons hsame _ ih => rw [List.map_cons, List.map_cons, ih, hsame.id]

/-- The parents by id are the same. -/
theorem parents_eq (h : List.Forall₂ SameCap caps phones) (k : JsString) :
    ((indexBy Dart.CapRule.id id phones).get? k).map Dart.CapRule.parentCapId =
      ((indexBy CapRule.id id caps).get? k).map CapRule.parentCapId := by
  rw [← get?_indexBy_eq_map, ← get?_indexBy_eq_map]
  have hfold : ∀ byId : InsertionMap JsString (Option JsString),
      phones.foldl (fun m phone => m.set phone.id phone.parentCapId) byId =
        caps.foldl (fun m cap => m.set cap.id cap.parentCapId) byId := by
    induction h with
    | nil => exact fun _ => rfl
    | cons hsame _ ih =>
      intro byId
      rw [List.foldl_cons, List.foldl_cons, hsame.id, hsame.parentCapId, ih]
  exact congrArg (fun m : InsertionMap JsString (Option JsString) => m.get? k) (hfold .empty)

theorem above_eq (h : List.Forall₂ SameCap caps phones) :
    Above (indexBy Dart.CapRule.id id phones).get? Dart.CapRule.parentCapId =
      Above (indexBy CapRule.id id caps).get? CapRule.parentCapId := by
  have hparent : ∀ k, ((indexBy Dart.CapRule.id id phones).get? k).bind Dart.CapRule.parentCapId =
      ((indexBy CapRule.id id caps).get? k).bind CapRule.parentCapId := fun k => by
    have hbind := congrArg (fun parent : Option (Option JsString) => parent.bind fun p => p) (parents_eq h k)
    simpa only [Option.bind_map, Function.comp_def] using hbind
  have hsome : ∀ k, ((indexBy Dart.CapRule.id id phones).get? k).isSome =
      ((indexBy CapRule.id id caps).get? k).isSome := fun k => by
    simpa using congrArg Option.isSome (parents_eq h k)
  unfold Above
  congr 1
  funext k p
  simp only [IsParent, hparent k, hsome p]

/-- Caps that both engines read alike are counted alike. -/
theorem counted_iff (h : List.Forall₂ SameCap caps phones) (hids : (caps.map CapRule.id).Nodup)
    (ruleId categoryId : Option JsString) {cap : CapRule} (hcap : cap ∈ caps) {phone : Dart.CapRule}
    (hphone : phone ∈ phones) (hsame : SameCap cap phone) :
    Counted CapRule.id CapRule.parentCapId (fun cap => cap.counts ruleId categoryId) caps cap ↔
      Counted Dart.CapRule.id Dart.CapRule.parentCapId (fun phone => phone.counts ruleId categoryId) phones phone := by
  have hphones : (phones.map Dart.CapRule.id).Nodup := by rwa [map_id_eq h]
  rw [← exists_above_iff hids hcap, ← exists_above_iff hphones hphone, above_eq h, hsame.id,
    map_id_filter_congr h fun _ _ _ _ hsame => (hsame.counts ruleId categoryId).symm]

end Both

/-- The walks over the parents end. The server returns, once each and in the order of the catalogue, those caps that
it can enforce of the caps that count the transaction and of all those above them. The phone returns all of these
caps. -/
theorem applicableCaps_closed {caps : List CapRule} (hids : (caps.map CapRule.id).Nodup) (card : Card)
    (rule : RewardRule) (categoryId : Option JsString) :
    (∀ chosen parent rounds, caps.length < rounds → ∃ last,
      whileLoop (walkTest (indexBy CapRule.id id caps).get?)
          (walkStep (indexBy CapRule.id id caps).get? CapRule.parentCapId) rounds (chosen, parent) =
        some (addParents (indexBy CapRule.id id caps) caps.length chosen parent, last)) ∧
    ∃ counted : List CapRule, counted.Sublist caps ∧
      (∀ cap ∈ caps, cap ∈ counted ↔
        Counted CapRule.id CapRule.parentCapId (fun cap => cap.counts rule.id categoryId) caps cap) ∧
      (applicableCaps card caps rule categoryId).caps = counted.filterMap (enforced card rule) ∧
      ((applicableCaps card caps rule categoryId).caps.map AppliedCap.id).Sublist (caps.map CapRule.id) ∧
      ∀ product : Dart.CardProduct, List.Forall₂ SameCap caps product.capRules →
        (∀ seen parent rounds, (Dart.capsById product.capRules).size < rounds → ∃ last,
          whileLoop (walkTest (Dart.capsById product.capRules).get?)
              (walkStep (Dart.capsById product.capRules).get? Dart.CapRule.parentCapId) rounds (seen, parent) =
            some (seen ++ Dart.parentsOf (Dart.capsById product.capRules) (Dart.capsById product.capRules).size
              seen parent, last)) ∧
        (Dart.applicableCaps product rule.id categoryId).map Dart.CapRule.id = counted.map CapRule.id := by
  refine ⟨fun chosen parent rounds hrounds => ?_, caps.filter fun cap => cap.id ∈ chosenCaps caps rule.id categoryId,
    List.filter_sublist, fun cap hcap => ?_, applicableCaps_caps card caps rule categoryId,
    sublist_applicableCaps card caps rule categoryId, fun product hsame => ⟨fun seen parent rounds hrounds => ?_, ?_⟩⟩
  · rw [addParents_eq]
    exact whileLoop_trail (fun _ => mem_ids_of_isSome)
      ((List.length_filter_le _ _).trans (List.length_map CapRule.id).le) parent hrounds
  · rw [List.mem_filter, decide_eq_true_iff, mem_chosenCaps_iff hids hcap]
    exact and_iff_right hcap
  · have hphones : (product.capRules.map Dart.CapRule.id).Nodup := by rwa [map_id_eq hsame]
    have hsize : (Dart.capsById product.capRules).size = (product.capRules.map Dart.CapRule.id).length := by
      rw [Dart.capsById_eq hphones, InsertionMap.size, entries_indexBy hphones, List.length_map, List.length_map]
    rw [Dart.parentsOf_eq]
    rw [Dart.capsById_eq hphones] at hsize hrounds ⊢
    exact whileLoop_trail (fun _ => mem_ids_of_isSome) ((List.length_filter_le _ _).trans hsize.ge) parent hrounds
  · have hphones : (product.capRules.map Dart.CapRule.id).Nodup := by rwa [map_id_eq hsame]
    rw [Dart.applicableCaps_eq hphones]
    refine map_id_filter_congr hsame fun cap hcap phone hphone hboth => ?_
    rw [decide_eq_decide, mem_chosenCaps_iff hids hcap, Dart.mem_selected_iff hphones hphone,
      counted_iff hsame hids rule.id categoryId hcap hphone hboth]

/-- A monthly cap on a rule and a yearly one above it, which names the monthly one as its parent. -/
def circle : List CapRule :=
  [{ id := js "yearly", measure := .known .spendAmount, period := .annual, capKind := some (.known .eligibleSpend),
     capAmount := some 12000, parentCapId := some (js "monthly"), targets := [js "other"] },
   { id := js "monthly", measure := .known .spendAmount, period := .calendarMonth,
     capKind := some (.known .eligibleSpend), capAmount := some 1000, parentCapId := some (js "yearly"),
     targets := [js "groceries"] }]

theorem applicableCaps_closed_circle :
    ∃ counted : List CapRule, counted.Sublist circle ∧
      (applicableCaps {} circle { id := some (js "groceries") } none).caps =
        counted.filterMap (enforced {} { id := some (js "groceries") }) := by
  obtain ⟨-, counted, hsub, -, hcaps, -⟩ :=
    @applicableCaps_closed circle (by decide) {} { id := some (js "groceries") } none
  exact ⟨counted, hsub, hcaps⟩

example : (applicableCaps {} circle { id := some (js "groceries") } none).caps.map AppliedCap.id =
    [js "yearly", js "monthly"] := by decide +kernel

/-- A cap of five hundred rupees on the value of the rewards of a rule. -/
def valueCap : CapRule where
  id := js "cap"
  measure := .known .rewardValue
  period := .calendarMonth
  capValue := some 500
  rewardRuleId := some (js "dining")

/-- A cap on the value of rewards, for a rule that earns points of a card without a point value, cannot be
enforced. -/
theorem cap_without_point_value_left_out :
    ¬ ∀ (card : Card) (caps : List CapRule) (rule : RewardRule) (categoryId : Option JsString),
      (caps.map CapRule.id).Nodup → ∀ cap ∈ caps, cap.counts rule.id categoryId = true →
        cap.id ∈ (applicableCaps card caps rule categoryId).caps.map AppliedCap.id := by
  intro h
  have hcap := h {} [valueCap] { id := some (js "dining"), unit := some (.known .pointsPer100), rate := some 5 } none
    (by decide) valueCap List.mem_cons_self (by decide)
  revert hcap
  decide +kernel

end PandaPay.CardRewards
