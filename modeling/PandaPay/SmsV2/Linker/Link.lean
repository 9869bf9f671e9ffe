import PandaPay.SmsV2.Linker.Joins

/-!
# The linker

`link` and `expire` of `rule_driven_linker.dart`: how a fact is processed, what a call starts from
and what it returns. The reviews of receipts without a payment change no event and are left out.

## Main definitions

* `process`: what becomes of a fact
* `start`: the state a call begins in
* `Linker.link`, `Linker.expire`: the calls
-/

namespace PandaPay.SmsV2

section Process

variable (env : Env) (s : Run) (f : Fact)

/-! ### Choices -/

/-- The legs that pair rules search another leg for, by priority. -/
def pairLegs : List (LinkRule × LinkLeg) :=
  (env.rules.filter fun rule => rule.kind ≠ .receipt && rule.kind ≠ .duplicateNotice).flatMap
    fun rule => (rule.legs.filter fun leg =>
      -- shared references never search
      leg.role ≠ .original && env.legMatches rule leg f).map fun leg => (rule, leg)

/-- The first leg with candidates, and what is left of them. -/
def firstPair : List (LinkRule × LinkLeg) → Except LinkError (Option (LinkRule × LinkLeg × List Cand))
  | [] => .ok none
  | (rule, leg) :: rest => do
    let cands ← candidates env s rule leg f
    if cands = [] then firstPair rest else .ok (some (rule, leg, narrow env s rule f cands))

/-- The first rule with notices this fact repeats, and what is left of them. -/
def firstDuplicate : List LinkRule → Option (LinkRule × List Cand)
  | [] => none
  | rule :: rules =>
    let cands := duplicateCandidates env s rule f
    if rule.kind ≠ .duplicateNotice ∨ cands = [] then firstDuplicate rules
    else some (rule, narrow env s rule f cands)

/-- The first rule that lets this leg stand alone. -/
def firstAlone : Option (LinkRule × LinkLeg) :=
  (env.rules.flatMap fun rule => rule.legs.map fun leg => (rule, leg)).find? fun c =>
    env.legMatches c.1 c.2 f && env.standsAlone c.1 c.2.role f

/-! ### Processing -/

/-- A pair rule found other legs: the state, and the event whose receipts `_afterMoney` looks for. -/
def takePair (rule : LinkRule) (leg : LinkLeg) (list : List Cand) : Run × Option JsString :=
  let (s, eventId) :=
    match list with
    | [c] => join env s rule leg.role f c
    | c :: _ =>
      -- several mandates of one merchant are no ambiguity about the money
      if rule.kind = .mandateCharge then join env s rule leg.role f c
      else ambiguous env s rule leg.role f list
    | [] => (s, f.factId)
  (s, some eventId)

/-- A duplicate rule found the payment this fact is a second notice of. -/
def takeDuplicate (rule : LinkRule) (list : List Cand) : Run :=
  match list with
  | [c] => joinDuplicate env s rule f c
  | _ => (ambiguous env s rule (if f.direction? = some .debit then .debitLeg else .creditLeg) f
      list).1

/-- A rule lets a leg stand alone. -/
def takeAlone (rule : LinkRule) (leg : LinkLeg) : Run × Option JsString :=
  let status : EventStatus := if rule.singleLeg = .awaitingLeg then .awaitingLeg else .complete
  let legs : List EventLeg := [⟨f.factId, leg.role⟩]
  let e := env.build f.factId (env.typeFor rule legs) status legs (some rule.id)
  let s := s.put e
  (if rule.singleLeg = .review then singleLegReview s rule f e else s, some e.eventId)

/-- No rule: one event typed by purpose and direction. -/
def takeFallback : Run × Option JsString :=
  match env.fallback f with
  | none => (s, none)
  | some (type, role, status) =>
    let e := env.build f.factId type status [⟨f.factId, role⟩] none
    (s.put e, some e.eventId)

/-- Steps 2 to 4 of `_process`. -/
def takeUnpaired : Run × Option JsString :=
  match if f.isMovement then firstDuplicate env s f env.rules else none with
  | some (rule, list) => (takeDuplicate env s f rule list, none)
  | none =>
    match firstAlone env f with
    | some (rule, leg) => takeAlone env s f rule leg
    | none => takeFallback env s f

/-- Legs that arrived before the movement `f`. -/
def takeLate : Run :=
  if f.isMovement then lateFeeOriginal env (lateOriginal env s f) f else s

/-- `_process` of a movement or a hold, up to `_afterMoney`. -/
def takeMoney : Except LinkError (Run × Option JsString) := do
  match if f.direction? = some .debit then lateFundingDebit env s f else none with
  | some s => return (s, none)
  | none =>
    match lateHold env s f with
    | some s => return (s, none)
    | none =>
      let s := takeLate env s f
      match ← firstPair env s f (pairLegs env f) with
      | some (rule, leg, list) => return takePair env s f rule leg list
      | none => return takeUnpaired env s f

/-- `_process` of a movement or a hold. -/
def processMoney : Except LinkError Run := do
  let (s, eventId) ← takeMoney env s f
  let s := match eventId with
    | some eventId => afterMoney env s f eventId
    | none => s
  return s.done env f

/-- `_process`. -/
def process : Except LinkError Run :=
  match f.factType with
  | .movement =>
    if f.evidenceOnly then
      .ok ((if f.direction? = some .debit then processReceipt env s f else s).done env f)
    else processMoney env s f
  | .mandate =>
    let s := if f.isIpoMandate then { s with pendingIpoMandates := s.pendingIpoMandates ++ [f] }
      else s
    .ok (lateMandate env (s.done env f) f)
  | .hold => processMoney env s f
  | _ => .ok (s.done env f)

/-- The body of the loop of `link`. -/
def linkStep : Except LinkError Run :=
  if (s.eventOfFact.get? f.factId).isSome then .ok (s.done env f) else process env s f

end Process

/-! ### Calls -/

/-- `created`, `updated` and `ambiguous`. -/
structure LinkResult where
  created : List Event
  updated : List Event
  ambiguous : List ReviewItem

/-- `[...context.openEvents, if (context case final RuleLinkContext c) ...c.knownEvents]`. -/
def LinkContext.known (context : LinkContext) : List Event :=
  context.openEvents ++ (context.rulePart.map RuleLinkPart.knownEvents).getD []

/-- The facts of a list by id. -/
def setFacts (facts : InsertionMap JsString Fact) (list : List Fact) : InsertionMap JsString Fact :=
  list.foldl (fun m f => m.set f.factId f) facts

/-- The recent facts that are not incoming, by time. -/
def recentOf (context : LinkContext) (incoming : List Fact) : List Fact :=
  (context.recentFacts.filter fun f => f.factId ∉ incoming.map Fact.factId).insertionSort
    Fact.orderLe

/-- The incoming facts, one of each id, in the order of arrival. -/
def arrivals (incoming : List Fact) : List Fact := (firstById incoming).insertionSort Fact.arrivalLe

/-- What a call is made with. -/
def Linker.env (linker : Linker) (context : LinkContext) (rules : List LinkRule) (now : ℤ)
    (incoming : List Fact) : Env where
  linker := linker
  context := context
  rules := rules.insertionSort LinkRule.before
  now := now
  facts := setFacts (setFacts .empty (recentOf context incoming)) (arrivals incoming)

/-- A known event, unless one with its id came before it. -/
def Table.know (t : Table) (e : Event) : Table :=
  if (t.events.get? e.eventId).isSome then t
  else { t with events := t.events.set e.eventId e, eventOfFact := mapLegs t.eventOfFact e }

/-- The known events, as `_Run` finds them. -/
def LinkContext.table (context : LinkContext) : Table := context.known.foldl Table.know {}

/-- The state of `_Run` before its facts are indexed. -/
def startTable (env : Env) : Run where
  toTable := env.context.table
  refunded := env.context.table.events.values.foldl (countRefund env) .empty

/-- `_Run`: the state a call begins in. -/
def start (env : Env) (recent : List Fact) : Run :=
  recent.foldl (fun s f => { s with processed := addTo s.processed f.factId }.index env f)
    (startTable env)

/-- `_result`. -/
def Run.result (env : Env) (s : Run) : LinkResult :=
  let isOld (id : JsString) : Bool := (env.context.table.events.get? id).isSome
  { created := (s.changed.filter fun id => !isOld id).filterMap s.events.get?
    updated := (s.changed.filter isOld).filterMap s.events.get?
    ambiguous := s.reviews.values }

/-- The body of the loop of `expire`. -/
def expireStep (env : Env) (s : Run) (e : Event) : Run :=
  let window := ((env.ruleById e.linkRuleId).map fun r => (r.join.window : ℤ)).getD
    (504 * 3600000000)
  let at' := ((env.facts.get? e.eventId).map Fact.latest).getD e.occurredAt
  if e.status = .awaitingLeg ∧ window < env.now - at' then s.put { e with status := .complete }
  else s

namespace Linker

/-- The state at the end of `link`. -/
def linked (linker : Linker) (context : LinkContext) (rules : List LinkRule) (now : ℤ)
    (incoming : List Fact) : Except LinkError Run := do
  let env := linker.env context rules now incoming
  let s ← (arrivals incoming).foldlM (linkStep env) (start env (recentOf context incoming))
  return attachIpoMandates env s

/-- `link`. -/
def link (linker : Linker) (context : LinkContext) (rules : List LinkRule) (now : ℤ)
    (incoming : List Fact) : Except LinkError LinkResult := do
  let s ← linker.linked context rules now incoming
  return s.result (linker.env context rules now incoming)

/-- The state at the end of `expire`. -/
def expired (linker : Linker) (context : LinkContext) (rules : List LinkRule) (now : ℤ) : Run :=
  let env := linker.env context rules now []
  env.context.table.events.values.foldl (expireStep env) (start env (recentOf context []))

/-- `expire`. -/
def expire (linker : Linker) (context : LinkContext) (rules : List LinkRule) (now : ℤ) :
    LinkResult :=
  (linker.expired context rules now).result (linker.env context rules now [])

end Linker

end PandaPay.SmsV2
