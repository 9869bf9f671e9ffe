import PandaPay.SmsV2.Linker.Matching
import PandaPay.Library.Checked

/-!
# The state of a call

The class `_Run` of `rule_driven_linker.dart`: the events a call knows, the indexes over the facts it
has seen, and the search for the other legs of a fact. `eventOfFact` names stored events only, so a
lookup of an event by it does not fail.

## Main definitions

* `Table`: the events, and the event each fact is a leg of
* `Run`: the table and the indexes
* `candidates`, `duplicateCandidates`, `feeTransaction`: the searches
* `narrow`
-/

namespace PandaPay.SmsV2

/-! ### Events -/

/-- `map.putIfAbsent(key, () => value)`. -/
def putIfAbsent {κ ν : Type} [DecidableEq κ] (map : InsertionMap κ ν) (key : κ) (value : ν) :
    InsertionMap κ ν :=
  if (map.get? key).isSome then map else map.set key value

/-- `set.add(value)`. -/
def addTo {α : Type} [DecidableEq α] (set : List α) (value : α) : List α :=
  if value ∈ set then set else set ++ [value]

/-- The events by id, and what `_put` keeps beside them. -/
structure Table where
  events : InsertionMap JsString Event := .empty
  changed : List JsString := []
  /-- Fact id to the event it is a leg of, in any role except `original`. -/
  eventOfFact : InsertionMap JsString JsString := .empty

/-- `_mapLegs`. -/
def mapLegs (eventOfFact : InsertionMap JsString JsString) (e : Event) :
    InsertionMap JsString JsString :=
  e.legs.foldl (fun m l => if l.role = .original then m else putIfAbsent m l.factId e.eventId)
    eventOfFact

/-- `_put`. -/
def Table.put (t : Table) (e : Event) : Table where
  events := t.events.set e.eventId e
  changed := addTo t.changed e.eventId
  eventOfFact := mapLegs t.eventOfFact e

/-- The event a fact is a leg of. -/
def Table.eventOf (t : Table) (g : Fact) : Option Event :=
  (t.eventOfFact.get? g.factId).bind t.events.get?

/-! ### Timelines -/

/-- Facts kept sorted by `effectiveAt`, then `factId`. -/
abbrev Timeline := List Fact

namespace Timeline

/-- The binary search of `add` and `range`: the first position whose fact does not pass. -/
def bisect (pass : Fact → Bool) (items : Timeline) : ℕ → ℕ → ℕ → ℕ
  | 0, lo, _ => lo
  | passes + 1, lo, hi =>
    if lo < hi then
      let mid := (lo + hi) / 2
      if (items[mid]?.map pass).getD false then bisect pass items passes (mid + 1) hi
      else bisect pass items passes lo mid
    else lo

/-- `add`. The search also finds the end, which the source tries first. -/
def add (items : Timeline) (f : Fact) : Timeline :=
  items.insertIdx (bisect (fun g => Fact.orderLe g f) items (items.length + 1) 0 items.length) f

/-- `range`: facts with `effectiveAt` in `[start, stop]`, oldest first. -/
def range (items : Timeline) (start stop : ℤ) : List Fact :=
  (items.drop (bisect (fun g => g.effectiveAt < start) items (items.length + 1) 0
    items.length)).takeWhile fun g => g.effectiveAt ≤ stop

end Timeline

/-- `index[key]?.range(start, stop) ?? const []`. -/
def rangeOf {κ : Type} [DecidableEq κ] (index : InsertionMap κ Timeline) (key : κ)
    (start stop : ℤ) : List Fact :=
  ((index.get? key).getD []).range start stop

/-- `_day`. -/
def day : ℤ := 86400000000

/-- `_slack`. -/
def slack : ℤ := 2 * day

/-! ### The state -/

structure ReviewItem where
  reviewId : JsString
  reason : String
  eventId : Option JsString
  factId : JsString
  linkRuleId : JsString
  candidates : List (Option JsString × JsString × LegRole) := []
  deriving DecidableEq

structure Run extends Table where
  processed : List JsString := []
  thisRun : List JsString := []
  byAmount : InsertionMap ℤ (List Fact) := .empty
  byType : InsertionMap FactType Timeline := .empty
  byInstrument : InsertionMap JsString Timeline := .empty
  byInstrumentParty : InsertionMap (JsString × PartyKey) Timeline := .empty
  mandatesByKey : InsertionMap PartyKey Timeline := .empty
  debitsByKey : InsertionMap PartyKey Timeline := .empty
  /-- Purchase fact id to the refunds already linked to it. -/
  refunded : InsertionMap JsString ℤ := .empty
  reviews : InsertionMap JsString ReviewItem := .empty
  ambiguousReceipts : List JsString := []
  pendingIpoMandates : List Fact := []

namespace Run

/-- `_put`. -/
def put (s : Run) (e : Event) : Run := { s with toTable := s.toTable.put e }

/-- `_index`. -/
def index (env : Env) (s : Run) (f : Fact) : Run :=
  let addKeys (index : InsertionMap PartyKey Timeline) (keys : List PartyKey) :=
    keys.dedup.foldl (fun m k => m.upsert k [] fun t => t.add f) index
  { s with
    byType := s.byType.upsert f.factType [] fun t => t.add f
    byAmount := match f.principal with
      | some a => s.byAmount.upsert a [] fun l => l ++ [f]
      | none => s.byAmount
    byInstrument := match env.instId f with
      | some i => s.byInstrument.upsert i [] fun t => t.add f
      | none => s.byInstrument
    byInstrumentParty := match env.instId f with
      | some i => (env.partyKeys f.party).foldl (fun m k => m.upsert (i, k) [] fun t => t.add f)
          s.byInstrumentParty
      | none => s.byInstrumentParty
    mandatesByKey :=
      if f.factType = .mandate then
        addKeys s.mandatesByKey (env.partyKeys f.party ++
          f.references.map fun r => .reference r.2)
      else s.mandatesByKey
    debitsByKey :=
      if f.direction? = some .debit ∧ f.evidenceOnly = false then
        addKeys s.debitsByKey (env.partyKeys f.party ++ f.mandateRef.toList.map .reference)
      else s.debitsByKey }

/-- `_done`. -/
def done (env : Env) (s : Run) (f : Fact) : Run :=
  let s := if f.factId ∈ s.processed then s
    else index env { s with processed := s.processed ++ [f.factId] } f
  { s with thisRun := addTo s.thisRun f.factId }

end Run

/-- What `_countRefund` adds for an event. -/
def countRefund (env : Env) (refunded : InsertionMap JsString ℤ) (e : Event) :
    InsertionMap JsString ℤ :=
  if e.type ≠ .refund then refunded
  else
    let sum := ((env.legFacts [.reversal] e.legs).map fun f => f.principal.getD 0).sum
    (e.legs.filter fun l => l.role = .original).foldl
      (fun m l => m.upsert l.factId 0 fun v => v + sum) refunded

/-! ### Candidates -/

/-- A candidate for the other leg: an event to extend, or a fact to join. -/
structure Cand where
  eventId : Option JsString
  fact : Fact
  role : LegRole
  deriving DecidableEq

section Search

variable (env : Env) (s : Run)

/-- `_usableLoose`. -/
def usableLoose (g : Fact) : Bool :=
  env.context.rulePart.isSome || g.factId ∈ s.thisRun || g.evidenceOnly || g.factType = .mandate

/-- Whether an event is settled by the user or ambiguous. -/
def isLocked (e : Event) : Bool := e.status = .userConfirmed || e.status = .ambiguous

/-- `_joinable`. -/
def joinable (rule : LinkRule) (e : Event) (role : LegRole) : Bool :=
  !isLocked e && (role = .duplicateNotice || e.legs.all fun l => l.role ≠ role) &&
    (e.linkRuleId = some rule.id || (e.linkRuleId = none && e.legs.length = 1))

/-- The tests of `_scan` before it looks at events. -/
def passes (rule : LinkRule) (role : LegRole) (f : Fact) (other : LinkLeg) (g : Fact) : Bool :=
  g.factId ≠ f.factId && g.sourceKey ≠ f.sourceKey && g.factId ∈ s.processed &&
    env.legMatches rule other g && f.within g rule.join.window &&
    Env.amountOk rule role f other.role g &&
    (rule.join.reference ≠ some .require || f.sharesRef g) &&
    env.pairOk s.refunded rule role f other.role g

/-- The body of the loop of `_scan`. -/
def scanStep (rule : LinkRule) (role : LegRole) (f : Fact) (other : LinkLeg)
    (acc : InsertionMap JsString Cand × List Cand) (g : Fact) :
    InsertionMap JsString Cand × List Cand :=
  if passes env s rule role f other g = false then acc
  else if other.role = .original then (acc.1, acc.2 ++ [⟨none, g, other.role⟩])
  else
    match s.eventOfFact.get? g.factId with
    | some eventId =>
      match s.events.get? eventId with
      | some e =>
        if (acc.1.get? eventId).isSome ∨ joinable rule e role = false then acc
        else (acc.1.set eventId ⟨some eventId, g, other.role⟩, acc.2)
      | none => acc
    | none => if usableLoose env s g then (acc.1, acc.2 ++ [⟨none, g, other.role⟩]) else acc

/-- `_scan`. -/
def scan (rule : LinkRule) (role : LegRole) (f : Fact) (other : LinkLeg) (pool : List Fact) :
    List Cand :=
  let (byEvent, loose) := pool.foldl (scanStep env s rule role f other) (.empty, [])
  if byEvent.values = [] then loose else byEvent.values

/-- `_pool`. -/
def poolOf (rule : LinkRule) (other : LinkLeg) (f : Fact) : List (List Fact) :=
  let start := f.effectiveAt - (rule.join.window + slack)
  let stop := f.effectiveAt + slack
  let i := env.instId f
  let sameParty := match i with
    | some i => (env.partyKeys f.party).map fun k => rangeOf s.byInstrumentParty (i, k) start stop
    | none => []
  let sameAmount := match f.principal with
    | some a => [(s.byAmount.get? a).getD []]
    | none => []
  if rule.kind = .ipo then sameParty ++ [rangeOf s.byType .hold start stop]
  else
    match other.pattern.factType.filter (· ≠ .movement) with
    | some ft => [rangeOf s.byType ft start stop]
    | none =>
      if rule.tolerance = 0 ∧ f.principal.isSome then sameAmount
      else if rule.kind = .refund then if i = none then [] else sameParty ++ sameAmount
      else [rangeOf s.byType .movement start stop]

/-- The keys of a group of mandates. -/
inductive MandateGroup where
  | ref (reference : JsString)
  | name (words : List JsString)
  deriving DecidableEq

/-- The facts of a list by id, the last of each. -/
def byId (facts : List Fact) : List Fact :=
  (facts.foldl (fun (m : InsertionMap JsString Fact) g => m.set g.factId g) .empty).values

/-- Whether a mandate of the pool may be the one a debit charges. -/
def chargeable (rule : LinkRule) (f g : Fact) : Bool :=
  g.factId ∈ s.processed && g.sourceKey ≠ f.sourceKey && !g.isIpoMandate && !g.isSipOrLoan &&
    g.effectiveAt ≤ f.effectiveAt + day && f.within g rule.join.window &&
    (match f.mandateRef with
      | some ref =>
        if g.references = [] then env.sameParty g.party f.party
        else (g.references.map Prod.snd).contains ref
      | none => env.sameParty g.party f.party)

/-- The group a mandate belongs to. -/
def mandateGroup (g : Fact) : MandateGroup :=
  match ((g.references.map Prod.snd).insertionSort (· ≤ ·)).head? with
  | some r => .ref r
  | none => .name (env.key g.party)

/-- The candidate of a group, with the time and id it is sorted by. -/
def groupCandidate (f : Fact) (group : List Fact) : Option (ℤ × JsString × Cand) :=
  let upTo := (group.insertionSort Fact.orderLe).filter fun g =>
    g.effectiveAt ≤ f.effectiveAt + day
  match upTo.getLast? with
  | none => none
  | some last =>
    if last.mandatePhase ∈ [some .revoked, some .expired, some .paused] then none
    else
      let original := (upTo.find? fun g => g.mandatePhase = some .created).getD last
      let ceiling := upTo.reverse.findSome? fun g => (g.amount .ceiling).map Amount.minor
      match ceiling, f.principal with
      | some ceiling, some posted =>
        if posted > ceiling then none
        else some (last.effectiveAt, last.factId, ⟨none, original, .original⟩)
      | _, _ => some (last.effectiveAt, last.factId, ⟨none, original, .original⟩)

/-- `_mandateCandidates`: one candidate per mandate, the most recently active first. -/
def mandateCandidates (rule : LinkRule) (f : Fact) : List Cand :=
  let start := f.effectiveAt - (rule.join.window + slack)
  let keys := env.partyKeys f.party ++ f.mandateRef.toList.map .reference
  let pool := (byId (keys.flatMap fun k =>
    rangeOf s.mandatesByKey k start (f.effectiveAt + day))).insertionSort Fact.orderLe
  let groups := (pool.filter (chargeable env s rule f)).foldl
    (fun (m : InsertionMap MandateGroup (List Fact)) g =>
      m.upsert (mandateGroup env g) [] fun l => l ++ [g]) .empty
  let out := groups.values.filterMap (groupCandidate f)
  (out.insertionSort fun a b => b.1 < a.1 ∨ (a.1 = b.1 ∧ b.2.1 ≤ a.2.1)).map fun c => c.2.2

/-- `_feeEvidence`. -/
def feeEvidence (rule : LinkRule) (fee : Fact) (charged : Option OriginalAmount) (g : Fact) : Bool :=
  g.direction? = some .debit && !g.evidenceOnly && env.instId g = env.instId fee &&
    g.effectiveAt ≤ fee.effectiveAt + slack && fee.within g rule.join.window &&
    (fee.sharesRef g || (!fee.conflictingRefs g &&
      (match charged, (g.amount .posted).bind Amount.foreign with
        | some charged, some price => price = charged
        | _, _ => false)))

/-- The body of the loop of `_feeTransaction`. -/
def feeStep (rule : LinkRule) (originalLeg : LinkLeg) (fee : Fact)
    (charged : Option OriginalAmount) (byTransaction : InsertionMap JsString Fact) (g : Fact) :
    InsertionMap JsString Fact :=
  if g.factId = fee.factId ∨ g.sourceKey = fee.sourceKey ∨
      env.legMatches rule originalLeg g = false ∨ feeEvidence env rule fee charged g = false then
    byTransaction
  else
    let key := (s.eventOfFact.get? g.factId).getD g.factId
    let moneyLeg : Bool := match s.events.get? key with
      | some e => e.legs.any fun l => l.factId = g.factId ∧ l.role = .debitLeg
      | none => false
    if (byTransaction.get? key).isNone ∨ moneyLeg then byTransaction.set key g else byTransaction

/-- `_feeTransaction`: the one transaction a fee was charged on. -/
def feeTransaction (rule : LinkRule) (fee : Fact) (extra : Option Fact := none) : Option Fact :=
  if fee.isMovement = false then none
  else
    match rule.legOf .original, env.instId fee with
    | some originalLeg, some i =>
      let charged := (fee.amount .posted).bind Amount.original
      if charged = none ∧ fee.refs = [] then none
      else
        let pool := (rangeOf s.byInstrument i (fee.effectiveAt - (rule.join.window + slack))
          (fee.effectiveAt + slack)).filter fun g => g.factId ∈ s.processed
        let byTransaction := (byId (pool ++ extra.toList)).foldl
          (feeStep env s rule originalLeg fee charged) .empty
        match byTransaction.values with
        | [g] => some g
        | _ => none
    | _, _ => none

/-- The cast `f as MovementFact` has failed. -/
inductive LinkError where
  | typeError
  deriving DecidableEq

/-- What the stages of `_candidates` find, in the order they are tried. Every later leg of a hold rule
relates to the placed hold. -/
def stages (rule : LinkRule) (leg : LinkLeg) (f : Fact) : List (List Cand) :=
  let placed := rule.legs.filter fun l => l.role = .holdPlaced
  let others :=
    if placed = [] then rule.legs.filter fun l => l.role ≠ leg.role
    else if leg.role = .holdPlaced then [] else placed
  others.flatMap fun other => (poolOf env s rule other f).map fun pool =>
    scan env s rule leg.role f other pool

/-- `_candidates`. The cast is the first line of `_mandateCandidates`. -/
def candidates (rule : LinkRule) (leg : LinkLeg) (f : Fact) : Except LinkError (List Cand) :=
  match rule.kind with
  | .mandateCharge => do
    failIf (f.isMovement = false) .typeError
    return mandateCandidates env s rule f
  | .feeCharge => .ok ((feeTransaction env s rule f).map fun g => ⟨none, g, .original⟩).toList
  | _ => .ok (((stages env s rule leg f).find? fun found => found ≠ []).getD [])

/-- The body of the loop of `_duplicateCandidates`. -/
def duplicateStep (rule : LinkRule) (moneyLeg : LinkLeg) (f : Fact)
    (byEvent : InsertionMap JsString Cand) (g : Fact) : InsertionMap JsString Cand :=
  if g.isMovement = false ∨ g.factId = f.factId ∨ g.sourceKey = f.sourceKey ∨
      g.factId ∉ s.processed ∨ env.legMatches rule moneyLeg g = false ∨
      f.within g rule.join.window = false then byEvent
  else
    match s.eventOfFact.get? g.factId with
    | none => byEvent
    | some eventId =>
      match s.events.get? eventId with
      | none => byEvent
      | some e =>
        if (byEvent.get? eventId).isSome ∨ isLocked e then byEvent
        else
          match e.legs.find? fun l => l.factId = g.factId with
          | none => byEvent
          | some l =>
            let fi := env.instId f
            let gi := env.instId g
            let shared := f.sharesRef g
            if l.role ∉ [.debitLeg, .charge, .creditLeg] ∨ (fi.isSome ∧ gi.isSome ∧ fi ≠ gi) ∨
                (shared = false ∧ f.conflictingRefs g) ∨
                -- the same template on the same account twice is two real payments
                (shared = false ∧ fi.isSome ∧ fi = gi ∧ f.ruleId = g.ruleId) then byEvent
            else byEvent.set eventId ⟨some eventId, g, l.role⟩

/-- `_duplicateCandidates`. -/
def duplicateCandidates (rule : LinkRule) (f : Fact) : List Cand :=
  match f.principal, rule.legOf .duplicateNotice,
    rule.legs.find? fun l => l.role ≠ .duplicateNotice with
  | some a, some noticeLeg, some moneyLeg =>
    if env.legMatches rule noticeLeg f then
      (((s.byAmount.get? a).getD []).foldl (duplicateStep env s rule moneyLeg f) .empty).values
    else []
  | _, _, _ => []

/-! ### Narrowing -/

/-- `_candFacts`. -/
def candFacts (c : Cand) : List Fact :=
  c.fact ::
    match c.eventId.bind s.events.get? with
    | some e => (e.legs.filterMap fun l => env.facts.get? l.factId).filter fun g =>
        g.factId ≠ c.fact.factId
    | none => []

/-- A step of `_narrow`, which applies only when it keeps at least one candidate. -/
def narrowStep (keep : Cand → Bool) (list : List Cand) : List Cand :=
  if list.length < 2 ∨ list.filter keep = [] then list else list.filter keep

/-- `_narrow`: by shared reference, counterparty, exact amount and instrument. -/
def narrow (rule : LinkRule) (f : Fact) (cands : List Cand) : List Cand :=
  let list := if rule.join.reference = some .ignore then cands
    else narrowStep (fun c => (candFacts env s c).any fun g => f.sharesRef g) cands
  let list := if f.party = none then list
    else narrowStep (fun c => (candFacts env s c).any fun g => env.sameParty f.party g.party) list
  let list := if f.principal = none then list
    else narrowStep (fun c => c.fact.principal = f.principal) list
  if env.instId f = none then list
  else narrowStep (fun c => env.instId c.fact = env.instId f) list

end Search

end PandaPay.SmsV2
