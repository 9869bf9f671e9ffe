import Mathlib.Data.List.Infix
import Mathlib.Data.List.Lex
import PandaPay.Library.Best
import PandaPay.SmsV2.Category.MerchantKey
import PandaPay.SmsV2.Ledger.Snapshot

/-!
# The category resolver

`DefaultCategoryResolver` of `category/category_resolver.dart`: the rules of a tier that fit a spend, the best
of them by the order of the tier, and the tiers one after the other.

## Main definitions

* `Compiled`: a rule with its key normalised once
* `DefaultCategoryResolver.resolve`, `DefaultCategoryResolver.decide`
* `DefaultCategoryResolver.Fits`: a rule fits a spend

## Main results

* `resolution_order_tiers_frame`: the order of the rules does not matter, the rules of the user come first,
  and rules that do not fit do not matter
-/

namespace PandaPay.SmsV2.Category

/-! ### Rules -/

inductive CategoryMatch where
  | token | exact | prefixOf | contains
  deriving DecidableEq

/-- `CategoryRule`. -/
structure CategoryRule where
  merchantKey : JsString
  «match» : CategoryMatch
  senders : List JsString
  context : List JsString
  category : JsString
  priority : ℤ
  source : CategorySource

/-- `ResolverInput`, and `CategoryInput` as one without a suggestion. -/
structure ResolverInput where
  counterparty : Option Counterparty
  senderBrand : JsString
  contextTokens : List JsString := []
  userRules : List CategoryRule := []
  bundleRules : List CategoryRule := []
  /-- Merchant key to the category the user confirmed for it before. -/
  confirmedHistory : InsertionMap JsString JsString := .empty
  aiSuggestion : Option JsString := none

/-- `_Compiled`. -/
structure Compiled where
  source : CategorySource
  key : JsString
  tokens : List JsString
  «match» : CategoryMatch
  slug : JsString
  priority : ℤ
  senders : List JsString
  context : List JsString
  deriving DecidableEq

namespace Compiled

/-- `anySender`. -/
def anySender (c : Compiled) : Bool := js "*" ∈ c.senders

/-- `allowsSender(sender)`. -/
def allowsSender (c : Compiled) (sender : JsString) : Bool := c.anySender || sender ∈ c.senders

/-- `matches(merchant, merchantTokens)`. -/
def «matches» (c : Compiled) (merchant : JsString) (merchantTokens : List JsString) : Bool :=
  match c.match with
  | .exact => merchant = c.key
  | .prefixOf => c.key.isPrefixOf merchant
  | .contains => c.key <:+: merchant
  | .token => c.tokens <:+: merchantTokens

/-- A rule of a tier is for this key, sender and context. -/
def fits (c : Compiled) (sender : JsString) (context : List JsString) (key : JsString) : Bool :=
  let tokens := merchantTokens key
  c.allowsSender sender && c.matches key tokens &&
    (c.context = [] || c.context.any fun t => t ∈ tokens || t ∈ context)

end Compiled

/-- `_Hit`. -/
structure Hit where
  rule : Compiled
  /-- The rule key is the whole merchant key. -/
  whole : Bool

/-! ### Ordering -/

/-- `_tail(a, b)`. -/
def compareTail (a b : Hit) : Ordering := (cmp a.rule.key b.rule.key).then (cmp a.rule.slug b.rule.slug)

/-- `_compareUser(a, b)`: a satisfied contextual rule beats a plain one, a rule for this sender beats a rule for
any sender, then the longer match. -/
def compareUser (a b : Hit) : Ordering :=
  (cmp (if b.rule.context = [] then 0 else 1) (if a.rule.context = [] then 0 else 1)).then <|
  (cmp (if b.rule.anySender then 0 else 1) (if a.rule.anySender then 0 else 1)).then <|
  (cmp b.rule.tokens.length a.rule.tokens.length).then <|
  (cmp (if b.whole then 1 else 0) (if a.whole then 1 else 0)).then <|
  (cmp b.rule.priority a.rule.priority).then <| compareTail a b

/-- `_comparePriorityFirst(a, b)`: by priority, then the longer match. -/
def comparePriorityFirst (a b : Hit) : Ordering :=
  (cmp b.rule.priority a.rule.priority).then <|
  (cmp b.rule.tokens.length a.rule.tokens.length).then <|
  (cmp (if b.whole then 1 else 0) (if a.whole then 1 else 0)).then <| compareTail a b

/-- `_compareLongestFirst(a, b)`: the longest match, then priority. -/
def compareLongestFirst (a b : Hit) : Ordering :=
  (cmp b.rule.tokens.length a.rule.tokens.length).then <|
  (cmp b.rule.priority a.rule.priority).then <|
  (cmp (if b.whole then 1 else 0) (if a.whole then 1 else 0)).then <| compareTail a b

/-! ### Decisions -/

/-- `DefaultCategoryResolver`. -/
structure DefaultCategoryResolver where
  keyer : MerchantKeyer
  registry : TaxonomyRegistry := .v1

namespace DefaultCategoryResolver

variable (resolver : DefaultCategoryResolver)

/-- What Dart makes of letters. -/
def letters : Letters := resolver.keyer.letters

/-- `_Compiled.tryCompile(r, registry)`. -/
def tryCompile (r : CategoryRule) : Option Compiled :=
  let normalize := normalizeMerchantText resolver.letters
  match resolver.registry.canonicalSlug resolver.letters (some r.category) with
  | none => none
  | some slug =>
    if normalize r.merchantKey = [] then none
    else some
      { source := r.source
        key := normalize r.merchantKey
        tokens := merchantTokens (normalize r.merchantKey)
        «match» := r.match
        slug
        priority := r.priority
        senders := r.senders.map fun s => resolver.letters.toUpperCase (trim s)
        context := r.context.flatMap fun c => merchantTokens (normalize c) }

/-- `_contextOf(input)`. -/
def contextOf (input : ResolverInput) : List JsString :=
  input.contextTokens.flatMap fun t => merchantTokens (normalizeMerchantText resolver.letters t)

/-- The `sender` of `_best`. -/
def senderOf (input : ResolverInput) : JsString := resolver.letters.toUpperCase (trim input.senderBrand)

/-- The hits of `_best`, in the order of its loops. -/
def hits (rules : List CategoryRule) (keys : List JsString) (input : ResolverInput) (tier : CategorySource) :
    List Hit :=
  keys.flatMap fun key =>
    (rules.filterMap resolver.tryCompile).filterMap fun c =>
      if c.source = tier && c.fits (resolver.senderOf input) (resolver.contextOf input) key then
        some ⟨c, c.key = key⟩
      else none

/-- `_best(_rulesOf(rules), keys, …, compare, …)`. -/
def bestOf (rules : List CategoryRule) (keys : List JsString) (input : ResolverInput) (tier : CategorySource)
    (compare : Hit → Hit → Ordering) : Option Hit :=
  best compare (resolver.hits rules keys input tier)

/-- `_decide(hit, source, confidence, tier)`. -/
def decisionOf (hit : Hit) (source : CategorySource) (confidence : ℚ) (tier : JsString) : CategoryDecision where
  slug := hit.rule.slug
  source := source
  ruleId := some (tier ++ js ":" ++ hit.rule.key ++
    if hit.rule.context = [] then [] else js "+" ++ List.intercalate (js ",") hit.rule.context)
  confidence := confidence

/-- The decision of a rule of the user. -/
def userDecision (keys : List JsString) (input : ResolverInput) : Option CategoryDecision :=
  (resolver.bestOf input.userRules keys input .user compareUser).map fun hit =>
    decisionOf hit .user 1 (js "user")

/-- The decision of a shared rule. -/
def sharedDecision (key : JsString) (input : ResolverInput) : Option CategoryDecision :=
  (resolver.bestOf input.bundleRules [key] input .shared comparePriorityFirst).map fun hit =>
    decisionOf hit .shared (95 / 100) (js "shared")

/-- The decision of a rule of the catalogue. -/
def catalogueDecision (key : JsString) (input : ResolverInput) : Option CategoryDecision :=
  (resolver.bestOf input.bundleRules [key] input .catalogue compareLongestFirst).map fun hit =>
    decisionOf hit .catalogue (if hit.whole then 9 / 10 else 8 / 10) (js "catalogue")

/-- The category that the user confirmed before. -/
def historyDecision (key : JsString) (input : ResolverInput) : Option CategoryDecision :=
  (resolver.registry.canonicalSlug resolver.letters (input.confirmedHistory.get? key)).map fun slug =>
    { slug, source := .historyConfirmed, ruleId := some (js "history_confirmed:" ++ key), confidence := 85 / 100 }

/-- The category that the AI suggests. -/
def aiDecision (input : ResolverInput) : Option CategoryDecision :=
  ((resolver.registry.canonicalSlug resolver.letters input.aiSuggestion).filter (· ≠ js "other")).map fun slug =>
    { slug, source := .ai, confidence := 6 / 10 }

/-- `resolve(input)`. -/
def resolve (input : ResolverInput) : CategoryDecision :=
  let byKey := (resolver.keyer.keyFor input.counterparty).bind fun key =>
    (resolver.userDecision [key] input).or <| (resolver.sharedDecision key input).or <|
      (resolver.catalogueDecision key input).or (resolver.historyDecision key input)
  (byKey.or (resolver.aiDecision input)).getD .fallback

/-- The keys of a payment to a person, each once. -/
def personKeys (counterparty : Option Counterparty) : List JsString :=
  let key := resolver.keyer.keyFor counterparty
  key.toList ++ ((resolver.keyer.personRuleKey counterparty).filter fun k => some k ≠ key).toList

/-- `decide(eventType, input, linkedPurchase)`. -/
def decide (eventType : EventType) (input : ResolverInput) (linkedPurchase : Option CategoryDecision) :
    Option CategoryDecision :=
  if ¬ eventType.isCategorised then none
  else if eventType = .refund ∧ linkedPurchase.isSome then linkedPurchase
  else if eventType ≠ .p2pOut then some (resolver.resolve input)
  else some ((resolver.userDecision (resolver.personKeys input.counterparty) input).getD .fallback)

end DefaultCategoryResolver

/-! ### Ranks -/

/-- What `compareTail` goes by. -/
def rankTail (h : Hit) : JsString ×ₗ JsString := toLex (h.rule.key, h.rule.slug)

/-- What `compareUser` goes by. -/
def rankUser (h : Hit) : ℕᵒᵈ ×ₗ ℕᵒᵈ ×ₗ ℕᵒᵈ ×ₗ ℕᵒᵈ ×ₗ ℤᵒᵈ ×ₗ JsString ×ₗ JsString :=
  toLex (.toDual (if h.rule.context = [] then 0 else 1), toLex (.toDual (if h.rule.anySender then 0 else 1),
    toLex (.toDual h.rule.tokens.length, toLex (.toDual (if h.whole then 1 else 0),
      toLex (.toDual h.rule.priority, rankTail h)))))

/-- What `comparePriorityFirst` goes by. -/
def rankPriorityFirst (h : Hit) : ℤᵒᵈ ×ₗ ℕᵒᵈ ×ₗ ℕᵒᵈ ×ₗ JsString ×ₗ JsString :=
  toLex (.toDual h.rule.priority, toLex (.toDual h.rule.tokens.length,
    toLex (.toDual (if h.whole then 1 else 0), rankTail h)))

/-- What `compareLongestFirst` goes by. -/
def rankLongestFirst (h : Hit) : ℕᵒᵈ ×ₗ ℤᵒᵈ ×ₗ ℕᵒᵈ ×ₗ JsString ×ₗ JsString :=
  toLex (.toDual h.rule.tokens.length, toLex (.toDual h.rule.priority,
    toLex (.toDual (if h.whole then 1 else 0), rankTail h)))

/-- Texts are compared by their code units. -/
theorem cmp_text (s t : JsString) : cmp s t = @cmp JsString Preorder.toLT LinearOrder.toDecidableLT s t := by
  unfold cmp cmpUsing
  congr

theorem rankedBy_compareTail : RankedBy compareTail rankTail := by
  have hslug := rankedBy_cmp fun h : Hit => h.rule.slug
  have hkey := hslug.ascending fun h : Hit => h.rule.key
  intro a b
  rw [compareTail, cmp_text a.rule.key, cmp_text a.rule.slug]
  exact hkey a b

theorem rankedBy_compareUser : RankedBy compareUser rankUser := by
  have hpriority := rankedBy_compareTail.descending fun h : Hit => h.rule.priority
  have hwhole := hpriority.descending fun h : Hit => if h.whole then 1 else 0
  have hlength := hwhole.descending fun h : Hit => h.rule.tokens.length
  have hsender := hlength.descending fun h : Hit => if h.rule.anySender then 0 else 1
  exact hsender.descending fun h : Hit => if h.rule.context = [] then 0 else 1

theorem rankedBy_comparePriorityFirst : RankedBy comparePriorityFirst rankPriorityFirst := by
  have hwhole := rankedBy_compareTail.descending fun h : Hit => if h.whole then 1 else 0
  have hlength := hwhole.descending fun h : Hit => h.rule.tokens.length
  exact hlength.descending fun h : Hit => h.rule.priority

theorem rankedBy_compareLongestFirst : RankedBy compareLongestFirst rankLongestFirst := by
  have hwhole := rankedBy_compareTail.descending fun h : Hit => if h.whole then 1 else 0
  have hpriority := hwhole.descending fun h : Hit => h.rule.priority
  exact hpriority.descending fun h : Hit => h.rule.tokens.length

/-- Rules that tie have one slug. -/
theorem slug_eq_of_rankTail {a b : Hit} (h : rankTail a = rankTail b) : a.rule.slug = b.rule.slug :=
  congrArg (fun r => (ofLex r).2) h

theorem slug_eq_of_rankUser {a b : Hit} (h : rankUser a = rankUser b) : a.rule.slug = b.rule.slug :=
  slug_eq_of_rankTail (congrArg (fun r => (ofLex (ofLex (ofLex (ofLex (ofLex r).2).2).2).2).2) h)

theorem slug_eq_of_rankPriorityFirst {a b : Hit} (h : rankPriorityFirst a = rankPriorityFirst b) :
    a.rule.slug = b.rule.slug :=
  slug_eq_of_rankTail (congrArg (fun r => (ofLex (ofLex (ofLex r).2).2).2) h)

theorem slug_eq_of_rankLongestFirst {a b : Hit} (h : rankLongestFirst a = rankLongestFirst b) :
    a.rule.slug = b.rule.slug :=
  slug_eq_of_rankTail (congrArg (fun r => (ofLex (ofLex (ofLex r).2).2).2) h)

namespace DefaultCategoryResolver

variable {resolver : DefaultCategoryResolver} {input : ResolverInput} {rules rules' : List CategoryRule}
  {keys : List JsString} {tier : CategorySource}

/-! ### Hits -/

/-- A rule fits a spend: its key is one of the keys, its senders and its context allow it. -/
def Fits (resolver : DefaultCategoryResolver) (input : ResolverInput) (keys : List JsString) (r : CategoryRule) :
    Prop :=
  ∃ c, resolver.tryCompile r = some c ∧
    ∃ key ∈ keys, c.fits (resolver.senderOf input) (resolver.contextOf input) key = true

theorem tryCompile_eq_some {r : CategoryRule} {c : Compiled} (h : resolver.tryCompile r = some c) :
    c.source = r.source ∧ resolver.registry.canonicalSlug resolver.letters (some r.category) = some c.slug := by
  rw [tryCompile] at h
  cases hslug : resolver.registry.canonicalSlug resolver.letters (some r.category) with
  | none => simp [hslug] at h
  | some slug =>
    rw [hslug] at h
    simp only at h
    split_ifs at h
    obtain rfl := Option.some.inj h
    exact ⟨rfl, rfl⟩

theorem mem_hits_iff {hit : Hit} : hit ∈ resolver.hits rules keys input tier ↔
    ∃ key ∈ keys, ∃ r ∈ rules, r.source = tier ∧ ∃ c, resolver.tryCompile r = some c ∧
      c.fits (resolver.senderOf input) (resolver.contextOf input) key = true ∧ hit = ⟨c, c.key = key⟩ := by
  simp only [hits, List.mem_flatMap, List.mem_filterMap]
  refine exists_congr fun key => and_congr_right fun _ => ?_
  constructor
  · rintro ⟨c, ⟨r, hr, hc⟩, hhit⟩
    split_ifs at hhit with hcond
    obtain ⟨htier, hfits⟩ := Bool.and_eq_true_iff.mp hcond
    exact ⟨r, hr, (tryCompile_eq_some hc).1.symm.trans (of_decide_eq_true htier), c, hc, hfits,
      (Option.some.inj hhit).symm⟩
  · rintro ⟨r, hr, htier, c, hc, hfits, rfl⟩
    refine ⟨c, ⟨r, hr, hc⟩, if_pos (Bool.and_eq_true_iff.mpr ⟨decide_eq_true ?_, hfits⟩)⟩
    rw [(tryCompile_eq_some hc).1, htier]

/-- A rule that does not fit is no hit, wherever it stands. -/
theorem hits_insert {r : CategoryRule} (h : ¬ resolver.Fits input keys r) (before after : List CategoryRule) :
    resolver.hits (before ++ r :: after) keys input tier = resolver.hits (before ++ after) keys input tier := by
  refine List.flatMap_congr fun key hkey => ?_
  have hnone : (resolver.tryCompile r).toList.filterMap (fun c : Compiled =>
      if c.source = tier && c.fits (resolver.senderOf input) (resolver.contextOf input) key then
        some (Hit.mk c (c.key = key))
      else none) = [] := by
    refine List.filterMap_eq_nil_iff.mpr fun c hc => if_neg fun hcond => h ?_
    exact ⟨c, Option.mem_toList.mp hc, key, hkey, (Bool.and_eq_true_iff.mp hcond).2⟩
  have hcons : (r :: after).filterMap resolver.tryCompile =
      (resolver.tryCompile r).toList ++ after.filterMap resolver.tryCompile := by
    rw [List.filterMap_cons]
    cases resolver.tryCompile r <;> rfl
  rw [List.filterMap_append, List.filterMap_append, hcons, List.filterMap_append, List.filterMap_append, hnone,
    List.nil_append, List.filterMap_append]

/-! ### Choices -/

/-- What a decision says: the slug and its source. -/
def choice (d : CategoryDecision) : JsString × CategorySource := (d.slug, d.source)

theorem choice_getD (o : Option CategoryDecision) :
    choice (o.getD .fallback) = (o.map choice).getD (choice .fallback) := by
  cases o <;> rfl

/-- The best hits of lists with the same rules have one slug. -/
theorem slug_bestOf_congr {β : Type*} [LinearOrder β] {compare : Hit → Hit → Ordering} {rank : Hit → β}
    (hrank : RankedBy compare rank)
    (hslug : ∀ {a b : Hit}, rank a = rank b → a.rule.slug = b.rule.slug) (h : rules'.Perm rules) :
    (resolver.bestOf rules' keys input tier compare).map (·.rule.slug) =
      (resolver.bestOf rules keys input tier compare).map (·.rule.slug) := by
  refine best_map_congr hrank (fun hit => ?_) fun a _ b _ => hslug
  simp only [mem_hits_iff, h.mem_iff]

theorem choice_map_decisionOf (hit : Option Hit) (source : CategorySource) (confidence : Hit → ℚ) (name : JsString) :
    (hit.map fun hit => choice (decisionOf hit source (confidence hit) name)) =
      (hit.map (·.rule.slug)).map fun slug => (slug, source) := by
  rw [Option.map_map]
  rfl

section Reordered

variable {userRules bundleRules : List CategoryRule} (huser : userRules.Perm input.userRules)
  (hbundle : bundleRules.Perm input.bundleRules)

include huser in
theorem choice_userDecision_congr : (resolver.userDecision keys { input with userRules, bundleRules }).map choice =
    (resolver.userDecision keys input).map choice := by
  rw [userDecision, userDecision, Option.map_map, Option.map_map]
  exact (choice_map_decisionOf _ .user (fun _ => 1) _).trans <|
    (congrArg _ (slug_bestOf_congr rankedBy_compareUser slug_eq_of_rankUser huser)).trans
      (choice_map_decisionOf _ .user (fun _ => 1) _).symm

include hbundle in
theorem choice_sharedDecision_congr (key : JsString) :
    (resolver.sharedDecision key { input with userRules, bundleRules }).map choice =
      (resolver.sharedDecision key input).map choice := by
  rw [sharedDecision, sharedDecision, Option.map_map, Option.map_map]
  exact (choice_map_decisionOf _ .shared (fun _ => 95 / 100) _).trans <|
    (congrArg _ (slug_bestOf_congr rankedBy_comparePriorityFirst slug_eq_of_rankPriorityFirst hbundle)).trans
      (choice_map_decisionOf _ .shared (fun _ => 95 / 100) _).symm

include hbundle in
theorem choice_catalogueDecision_congr (key : JsString) :
    (resolver.catalogueDecision key { input with userRules, bundleRules }).map choice =
      (resolver.catalogueDecision key input).map choice := by
  rw [catalogueDecision, catalogueDecision, Option.map_map, Option.map_map]
  let confidence : Hit → ℚ := fun hit => if hit.whole then 9 / 10 else 8 / 10
  exact (choice_map_decisionOf _ .catalogue confidence _).trans <|
    (congrArg _ (slug_bestOf_congr rankedBy_compareLongestFirst slug_eq_of_rankLongestFirst hbundle)).trans
      (choice_map_decisionOf _ .catalogue confidence _).symm

include huser hbundle

theorem choice_resolve_congr :
    choice (resolver.resolve { input with userRules, bundleRules }) = choice (resolver.resolve input) := by
  rw [resolve, resolve, choice_getD, choice_getD, Option.map_or, Option.map_or]
  congr 2
  cases resolver.keyer.keyFor input.counterparty with
  | none => rfl
  | some key =>
    simp only [Option.bind_some, Option.map_or]
    rw [choice_userDecision_congr huser, choice_sharedDecision_congr hbundle, choice_catalogueDecision_congr hbundle]
    rfl

theorem choice_decide_congr (eventType : EventType) (linkedPurchase : Option CategoryDecision) :
    (resolver.decide eventType { input with userRules, bundleRules } linkedPurchase).map choice =
      (resolver.decide eventType input linkedPurchase).map choice := by
  rw [decide, decide]
  by_cases hcategorised : eventType.isCategorised = true
  · rw [if_neg (not_not.mpr hcategorised), if_neg (not_not.mpr hcategorised)]
    by_cases hrefund : eventType = .refund ∧ linkedPurchase.isSome = true
    · rw [if_pos hrefund, if_pos hrefund]
    · rw [if_neg hrefund, if_neg hrefund]
      by_cases hperson : eventType = .p2pOut
      · rw [if_neg (not_not.mpr hperson), if_neg (not_not.mpr hperson), Option.map_some, Option.map_some, choice_getD,
          choice_getD, choice_userDecision_congr huser]
      · rw [if_pos hperson, if_pos hperson, Option.map_some, Option.map_some, choice_resolve_congr huser hbundle]
  · rw [if_pos hcategorised, if_pos hcategorised]

end Reordered

/-! ### Tiers -/

/-- The keys that the rules of the user are looked up with. -/
def keysOf (resolver : DefaultCategoryResolver) (eventType : EventType) (input : ResolverInput) : List JsString :=
  if eventType = .p2pOut then resolver.personKeys input.counterparty
  else (resolver.keyer.keyFor input.counterparty).toList

/-- A decision is that of a rule of the user that fits. -/
def ChosenByUser (resolver : DefaultCategoryResolver) (input : ResolverInput) (keys : List JsString)
    (d : CategoryDecision) : Prop :=
  d.source = .user ∧ ∃ r ∈ input.userRules, r.source = .user ∧ resolver.Fits input keys r ∧
    resolver.registry.canonicalSlug resolver.letters (some r.category) = some d.slug

/-- Where a rule of the user fits, one of them decides. -/
theorem exists_userDecision {r : CategoryRule} (hr : r ∈ input.userRules) (hsource : r.source = .user)
    (hfits : resolver.Fits input keys r) :
    ∃ d, resolver.userDecision keys input = some d ∧ resolver.ChosenByUser input keys d := by
  obtain ⟨c, hc, key, hkey, hkeyfits⟩ := hfits
  have hhit : (⟨c, c.key = key⟩ : Hit) ∈ resolver.hits input.userRules keys input .user :=
    mem_hits_iff.mpr ⟨key, hkey, r, hr, hsource, c, hc, hkeyfits, rfl⟩
  cases hbest : resolver.bestOf input.userRules keys input .user compareUser with
  | none =>
    rw [(best_eq_none_iff rankedBy_compareUser).mp hbest] at hhit
    exact absurd hhit List.not_mem_nil
  | some hit =>
    obtain ⟨key', hkey', r', hr', hsource', c', hc', hfits', rfl⟩ :=
      mem_hits_iff.mp (best_eq_some rankedBy_compareUser hbest).1
    refine ⟨_, by rw [userDecision, hbest, Option.map_some], rfl, r', hr', hsource',
      ⟨c', hc', key', hkey', hfits'⟩, (tryCompile_eq_some hc').2⟩

/-- The rules of the user come first. -/
theorem chosenByUser_resolve {r : CategoryRule} (hr : r ∈ input.userRules) (hsource : r.source = .user)
    (hfits : resolver.Fits input (resolver.keyer.keyFor input.counterparty).toList r) :
    resolver.ChosenByUser input (resolver.keyer.keyFor input.counterparty).toList (resolver.resolve input) := by
  obtain ⟨d, hd, hchosen⟩ := exists_userDecision hr hsource hfits
  cases hkey : resolver.keyer.keyFor input.counterparty with
  | none =>
    obtain ⟨c, -, key, hmem, -⟩ := hfits
    rw [hkey] at hmem
    exact absurd hmem List.not_mem_nil
  | some key =>
    rw [hkey] at hd hchosen
    have hresolve : resolver.resolve input = d := by
      rw [resolve, hkey, Option.bind_some, show resolver.userDecision [key] input = some d from hd]
      rfl
    rwa [hresolve]

theorem chosenByUser_decide {eventType : EventType} {linkedPurchase : Option CategoryDecision} {r : CategoryRule}
    (hcategorised : eventType.isCategorised = true)
    (hrefund : ¬ (eventType = .refund ∧ linkedPurchase.isSome = true)) (hr : r ∈ input.userRules)
    (hsource : r.source = .user) (hfits : resolver.Fits input (resolver.keysOf eventType input) r) :
    ∃ d, resolver.decide eventType input linkedPurchase = some d ∧
      resolver.ChosenByUser input (resolver.keysOf eventType input) d := by
  rw [decide, if_neg (not_not.mpr hcategorised), if_neg hrefund]
  by_cases hperson : eventType = .p2pOut
  · rw [keysOf, if_pos hperson] at hfits ⊢
    obtain ⟨d, hd, hchosen⟩ := exists_userDecision hr hsource hfits
    exact ⟨d, by rw [if_neg (not_not.mpr hperson), hd, Option.getD_some], hchosen⟩
  · rw [keysOf, if_neg hperson] at hfits ⊢
    exact ⟨_, if_pos hperson, chosenByUser_resolve hr hsource hfits⟩

/-! ### Rules that do not fit -/

section Inserted

variable {r : CategoryRule} (before after : List CategoryRule)

theorem userDecision_insert (h : ¬ resolver.Fits input keys r) :
    resolver.userDecision keys { input with userRules := before ++ r :: after } =
      resolver.userDecision keys { input with userRules := before ++ after } := by
  rw [userDecision, userDecision, bestOf, bestOf]
  exact congrArg (fun hits => (best compareUser hits).map _) (hits_insert h before after)

/-- A rule of the user that does not fit changes nothing. -/
theorem resolve_insert_user (h : ¬ resolver.Fits input (resolver.keyer.keyFor input.counterparty).toList r) :
    resolver.resolve { input with userRules := before ++ r :: after } =
      resolver.resolve { input with userRules := before ++ after } := by
  cases hkey : resolver.keyer.keyFor input.counterparty with
  | none =>
    simp only [resolve, hkey, Option.bind_none]
    rfl
  | some key =>
    rw [hkey] at h
    simp only [resolve, hkey, Option.bind_some]
    have huser : resolver.userDecision [key] { input with userRules := before ++ r :: after } =
        resolver.userDecision [key] { input with userRules := before ++ after } :=
      userDecision_insert before after h
    rw [huser]
    rfl

theorem resolve_insert_bundle (h : ¬ resolver.Fits input (resolver.keyer.keyFor input.counterparty).toList r) :
    resolver.resolve { input with bundleRules := before ++ r :: after } =
      resolver.resolve { input with bundleRules := before ++ after } := by
  cases hkey : resolver.keyer.keyFor input.counterparty with
  | none =>
    simp only [resolve, hkey, Option.bind_none]
    rfl
  | some key =>
    rw [hkey] at h
    have hshared : resolver.sharedDecision key { input with bundleRules := before ++ r :: after } =
        resolver.sharedDecision key { input with bundleRules := before ++ after } := by
      rw [sharedDecision, sharedDecision, bestOf, bestOf]
      exact congrArg (fun hits => (best comparePriorityFirst hits).map _) (hits_insert h before after)
    have hcatalogue : resolver.catalogueDecision key { input with bundleRules := before ++ r :: after } =
        resolver.catalogueDecision key { input with bundleRules := before ++ after } := by
      rw [catalogueDecision, catalogueDecision, bestOf, bestOf]
      exact congrArg (fun hits => (best compareLongestFirst hits).map _) (hits_insert h before after)
    simp only [resolve, hkey, Option.bind_some]
    rw [hshared, hcatalogue]
    rfl

/-- Rules that fit none of the keys change no decision, wherever they stand. -/
theorem decide_insert (eventType : EventType) (linkedPurchase : Option CategoryDecision)
    (h : ¬ resolver.Fits input (resolver.keysOf eventType input) r) :
    resolver.decide eventType { input with userRules := before ++ r :: after } linkedPurchase =
        resolver.decide eventType { input with userRules := before ++ after } linkedPurchase ∧
      resolver.decide eventType { input with bundleRules := before ++ r :: after } linkedPurchase =
        resolver.decide eventType { input with bundleRules := before ++ after } linkedPurchase := by
  by_cases hperson : eventType = .p2pOut
  · rw [keysOf, if_pos hperson] at h
    subst hperson
    have huser := userDecision_insert before after h
    exact ⟨congrArg (fun o : Option CategoryDecision => some (o.getD .fallback)) huser, rfl⟩
  · rw [keysOf, if_neg hperson] at h
    have hdecide : ∀ input : ResolverInput, resolver.decide eventType input linkedPurchase =
        if ¬ eventType.isCategorised then none
        else if eventType = .refund ∧ linkedPurchase.isSome then linkedPurchase else some (resolver.resolve input) := by
      intro input
      rw [decide, if_pos hperson]
    rw [hdecide, hdecide, hdecide, hdecide, resolve_insert_user before after h, resolve_insert_bundle before after h]
    exact ⟨rfl, rfl⟩

end Inserted

/-- **Order, tiers and frame of the resolution.** However the rules of the user and of the bundle are ordered, the
slug and the source are the same. Where a rule of the user fits, one of these decides, whatever the other rules
are. A rule that does not fit the key, the sender or the context can stand anywhere or nowhere. -/
theorem resolution_order_tiers_frame (resolver : DefaultCategoryResolver) (input : ResolverInput) :
    (∀ userRules bundleRules, userRules.Perm input.userRules → bundleRules.Perm input.bundleRules →
      choice (resolver.resolve { input with userRules, bundleRules }) = choice (resolver.resolve input) ∧
      ∀ eventType linkedPurchase,
        (resolver.decide eventType { input with userRules, bundleRules } linkedPurchase).map choice =
          (resolver.decide eventType input linkedPurchase).map choice) ∧
    (∀ r ∈ input.userRules, r.source = .user →
      (resolver.Fits input (resolver.keyer.keyFor input.counterparty).toList r →
        resolver.ChosenByUser input (resolver.keyer.keyFor input.counterparty).toList (resolver.resolve input)) ∧
      ∀ eventType linkedPurchase, eventType.isCategorised = true →
        ¬ (eventType = .refund ∧ linkedPurchase.isSome = true) →
        resolver.Fits input (resolver.keysOf eventType input) r →
        ∃ d, resolver.decide eventType input linkedPurchase = some d ∧
          resolver.ChosenByUser input (resolver.keysOf eventType input) d) ∧
    ∀ r before after,
      (¬ resolver.Fits input (resolver.keyer.keyFor input.counterparty).toList r →
        resolver.resolve { input with userRules := before ++ r :: after } =
            resolver.resolve { input with userRules := before ++ after } ∧
          resolver.resolve { input with bundleRules := before ++ r :: after } =
            resolver.resolve { input with bundleRules := before ++ after }) ∧
      ∀ eventType linkedPurchase, ¬ resolver.Fits input (resolver.keysOf eventType input) r →
        resolver.decide eventType { input with userRules := before ++ r :: after } linkedPurchase =
            resolver.decide eventType { input with userRules := before ++ after } linkedPurchase ∧
          resolver.decide eventType { input with bundleRules := before ++ r :: after } linkedPurchase =
            resolver.decide eventType { input with bundleRules := before ++ after } linkedPurchase := by
  refine ⟨fun userRules bundleRules huser hbundle => ?_, fun r hr hsource => ?_, fun r before after => ?_⟩
  · exact ⟨choice_resolve_congr huser hbundle, choice_decide_congr huser hbundle⟩
  · exact ⟨chosenByUser_resolve hr hsource,
      fun _ _ hcategorised hrefund => chosenByUser_decide hcategorised hrefund hr hsource⟩
  · exact ⟨fun h => ⟨resolve_insert_user before after h, resolve_insert_bundle before after h⟩,
      fun eventType linkedPurchase => decide_insert before after eventType linkedPurchase⟩

/-- A rule for a shop, and one for another. -/
def shopRule (name slug : JsString) (source : CategorySource) : CategoryRule where
  merchantKey := name
  «match» := .exact
  senders := [js "*"]
  context := []
  category := slug
  priority := 0
  source := source

/-- A resolver that leaves letters as they are. -/
def plainResolver : DefaultCategoryResolver := { keyer := { letters := ⟨id, id⟩, aliases := .empty } }

/-- A spend at a shop with a rule of the user and one of the catalogue. -/
def shopInput : ResolverInput where
  counterparty := some { name := some (js "SHOP") }
  senderBrand := js "BANK"
  userRules := [shopRule (js "SHOP") (js "fuel") .user, shopRule (js "CAFE") (js "dining") .user]
  bundleRules := [shopRule (js "SHOP") (js "rent") .catalogue]

theorem resolution_order_tiers_frame_shop :
    choice (plainResolver.resolve { shopInput with userRules := shopInput.userRules.reverse }) =
        choice (plainResolver.resolve shopInput) ∧
      plainResolver.ChosenByUser shopInput (plainResolver.keyer.keyFor shopInput.counterparty).toList
        (plainResolver.resolve shopInput) ∧
      plainResolver.resolve { shopInput with bundleRules := [shopRule (js "CAFE") (js "dining") .shared] } =
        plainResolver.resolve { shopInput with bundleRules := [] } := by
  have hkey : plainResolver.keyer.keyFor shopInput.counterparty = some (js "SHOP") := by decide
  have hfits : plainResolver.Fits shopInput [js "SHOP"] (shopRule (js "SHOP") (js "fuel") .user) :=
    ⟨_, rfl, js "SHOP", List.mem_singleton_self _, by decide⟩
  have hnot : ¬ plainResolver.Fits shopInput [js "SHOP"] (shopRule (js "CAFE") (js "dining") .shared) := by
    rintro ⟨c, hc, key, hmem, hfits⟩
    rw [List.mem_singleton.mp hmem, ← Option.some.inj hc] at hfits
    exact absurd hfits (by decide)
  refine ⟨?_, ?_, ?_⟩
  · exact ((resolution_order_tiers_frame plainResolver shopInput).1 _ _ (List.reverse_perm _) (.refl _)).1
  · refine ((resolution_order_tiers_frame plainResolver shopInput).2.1 _ List.mem_cons_self rfl).1 ?_
    rwa [hkey]
  · refine (((resolution_order_tiers_frame plainResolver shopInput).2.2 _ [] []).1 ?_).2
    rwa [hkey]

end DefaultCategoryResolver

end PandaPay.SmsV2.Category
