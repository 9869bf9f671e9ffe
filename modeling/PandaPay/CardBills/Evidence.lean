import Mathlib.Data.Rat.Floor
import PandaPay.Json.Value
import PandaPay.Library.Grouping
import PandaPay.Library.IndexBy
import PandaPay.Library.Sorting

/-!
# Bills from messages

The first half of `deriveCardBills` of `card_bill_ledger.dart`: which card a bill message belongs to, and how
the messages of a card make up its statement cycles. What regular expressions match, lower case and the local
calendar are given. Amounts are in paise and confidences are exact.

## Main definitions

* `CardBillEvidence`, `CardBill`, `CardBillLedger`, `UserCard`: the records of the source
* `orphanTarget`: the card of a message that names none
* `mergeCycles`, `mergeOne`: messages to bills
* `openLedgers`: the ledgers before any payment
-/

namespace PandaPay.CardBills

/-! ### Records -/

/-- A `DateTime`: an instant in microseconds, and whether its fields are those in UTC. -/
structure DateTime where
  micros : ℤ
  isUtc : Bool := false
  deriving DecidableEq

/-- The microseconds of a day. -/
def oneDay : ℤ := 86400000000

structure UserCard where
  id : JsString
  last4 : Option JsString := none
  nickname : Option JsString := none
  cardName : JsString
  deriving DecidableEq

structure CardBillEvidence where
  sourceId : Option JsString := none
  userCardId : Option JsString := none
  cardLast4 : Option JsString := none
  billerName : Option JsString := none
  family : Option JsString := none
  statementDate : DateTime
  statementDateExplicit : Bool
  dueDate : Option DateTime := none
  amountDue : Option ℤ := none
  minimumDue : Option ℤ := none
  confidence : ℚ
  isAutopay : Bool := false
  deriving DecidableEq

structure CardBill where
  statementDate : DateTime
  dueDate : Option DateTime
  amountDue : Option ℤ
  minimumDue : Option ℤ
  paidToward : ℤ
  lastPaymentAt : Option DateTime
  confidence : ℚ
  statementDateVerified : Bool := false
  statementDateExplicit : Bool := false
  isAutopay : Bool := false
  sourceIds : List JsString := []
  deriving DecidableEq

structure CardBillLedger where
  current : Option CardBill := none
  previous : Option CardBill := none
  history : List CardBill := []
  deriving DecidableEq

/-- What the source takes from its host. -/
structure Host where
  toLowerCase : JsString → JsString
  /-- `_billPaymentVerb.hasMatch(text)`. -/
  billPaymentVerb : JsString → Bool
  /-- `_cardWord.hasMatch(text)`. -/
  cardWord : JsString → Bool
  /-- The four digits that the expression of `_mentionedLast4` finds first. -/
  endingDigits : JsString → Option JsString
  year : DateTime → ℤ
  month : DateTime → ℤ
  day : DateTime → ℤ
  /-- `DateTime(year, month, day)`. -/
  localDate : ℤ → ℤ → ℤ → DateTime

namespace Host

variable (host : Host)

/-- `_day(d)`. -/
def dayOf (d : DateTime) : DateTime := host.localDate (host.year d) (host.month d) (host.day d)

/-- `DateTime(d.year, d.month, d.day + days)`. -/
def addDays (d : DateTime) (days : ℤ) : DateTime :=
  host.localDate (host.year d) (host.month d) (host.day d + days)

end Host

/-! ### Senders -/

/-- `[a-z0-9]`. -/
def isChannelLetter (c : CodeUnit) : Bool := (48 ≤ c.val ∧ c.val ≤ 57) ∨ (97 ≤ c.val ∧ c.val ≤ 122)

/-- `text.replaceFirst(RegExp(r'^[a-z0-9]{2}-'), '')`. -/
def dropChannelPrefix : JsString → JsString
  | a :: b :: dash :: rest =>
    if isChannelLetter a && isChannelLetter b && dash.val = 45 then rest else a :: b :: dash :: rest
  | text => text

/-- The loop of `canonicalBankSender` that removes `-[a-z]` from the end, on the text from its end. -/
def dropChannelSuffixes : JsString → JsString
  | c :: dash :: rest =>
    if 97 ≤ c.val ∧ c.val ≤ 122 ∧ dash.val = 45 then dropChannelSuffixes rest else c :: dash :: rest
  | text => text

/-- `_bankTokenAliases`. -/
def bankTokenAliases : List (JsString × JsString) :=
  [(js "canbnk", js "canara"), (js "canbk", js "canara"), (js "hdfcbk", js "hdfc"), (js "kotakb", js "kotak"),
    (js "icicib", js "icici"), (js "unionb", js "union"), (js "sbibnk", js "sbi"), (js "sbibk", js "sbi"),
    (js "sbyono", js "sbi"), (js "sbiyon", js "sbi"), (js "yonosb", js "sbi"), (js "sbiinb", js "sbi"),
    (js "sbiupi", js "sbi"), (js "axisbnk", js "axis"), (js "axisb", js "axis"), (js "idbibk", js "idbi"),
    (js "yesbnk", js "yes"), (js "yesbank", js "yes"), (js "ucob", js "uco"), (js "eqt", js "equitas"),
    (js "pytm", js "paytm")]

/-- `_bankCodePrefixes`. -/
def bankCodePrefixes : List JsString :=
  [js "canara", js "hdfc", js "kotak", js "icici", js "union", js "sbi", js "axis", js "equitas", js "aubank",
    js "indus", js "idbi", js "federal", js "paytm", js "citi", js "hsbc", js "dbs", js "scb", js "rbl", js "uco",
    js "bob", js "boi", js "pnb", js "yes"]

/-- `billFamilyCardTokens`. -/
def billFamilyCardTokens : List (JsString × List JsString) := []

section Senders

variable (host : Host)

/-- `canonicalBankSender(sender)`. -/
def canonicalBankSender (sender : Option JsString) : JsString :=
  let text := host.toLowerCase (trim (sender.getD []))
  if text = [] then js "unknown"
  else
    let bare := (dropChannelSuffixes (dropChannelPrefix text).reverse).reverse.filter (·.val ≠ 45)
    if bare = [] then js "unknown"
    else
      match bankTokenAliases.lookup bare with
      | some canonical => canonical
      | none => (bankCodePrefixes.find? (·.isPrefixOf bare)).getD bare

/-- `familyNamesCardDisplayName(family, cardDisplayName)`. -/
def familyNamesCardDisplayName (family : Option JsString) (cardDisplayName : JsString) : Bool :=
  if family = none ∨ family = some [] then false
  else
    match billFamilyCardTokens.lookup (canonicalBankSender host family) with
    | none => false
    | some tokens => tokens.all fun word => word <:+: host.toLowerCase cardDisplayName

/-- `_familyNamesCard(family, card)`. -/
def familyNamesCard (family : Option JsString) (card : UserCard) : Bool :=
  familyNamesCardDisplayName host family (card.nickname.getD [] ++ js " " ++ card.cardName)

/-- The names of a card in lower case. -/
def lowerName (card : UserCard) : JsString :=
  host.toLowerCase (match card.nickname with
    | some nickname => nickname ++ js " " ++ card.cardName
    | none => card.cardName)

/-- `_isHdfcCard(card)`. -/
def isHdfcCard (card : UserCard) : Bool :=
  [js "hdfc", js "moneyback", js "millennia", js "regalia", js "infinia", js "tata neu", js "swiggy"].any
    fun word => word <:+: lowerName host card

/-- The senders of the Tata Neu app. -/
def aggregators : List JsString := [js "mytneu", js "tnbpay", js "tatanu"]

/-- `_isNamedAggregatorNonCardBill(evidence)`. -/
def isNamedAggregatorNonCardBill (evidence : CardBillEvidence) : Bool :=
  match evidence.family, evidence.billerName with
  | some family, some biller =>
    let billerName := host.toLowerCase (trim biller)
    billerName ≠ [] && canonicalBankSender host (some family) ∈ aggregators &&
      !(js "credit card" <:+: billerName) && !(js "card bill" <:+: billerName)
  | _, _ => false

end Senders

/-! ### The card of a message -/

section Orphans

variable (host : Host)

/-- `_candidateCardsForEvidence(orphan, cards)`. -/
def candidateCardsForEvidence (orphan : CardBillEvidence) (cards : List UserCard) : List UserCard :=
  if orphan.family = none ∨ orphan.family = some [] then []
  else
    let canonical := canonicalBankSender host orphan.family
    let hdfcCards := if canonical ∈ js "hdfc" :: aggregators then cards.filter (isHdfcCard host) else []
    let named := cards.filter (familyNamesCard host orphan.family)
    let bankMatched := cards.filter fun card => canonical <:+: lowerName host card
    if hdfcCards ≠ [] then hdfcCards
    else if named.length = 1 then named
    else if bankMatched ≠ [] then bankMatched
    else named

/-- Whether the two messages are of one cycle: `sameDue || closeAnchors`. -/
def linksCycle (orphan row : CardBillEvidence) : Bool :=
  match orphan.dueDate, row.dueDate with
  | some due, some due' => host.dayOf due = host.dayOf due'
  | _, _ =>
    (orphan.statementDateExplicit && row.statementDateExplicit ||
        orphan.family ≠ none && row.family ≠ none &&
          canonicalBankSender host orphan.family = canonicalBankSender host row.family) &&
      |orphan.statementDate.micros - row.statementDate.micros| ≤ 7 * oneDay

/-- The card that `row` makes an owner of the cycle of `orphan`. -/
def cycleOwner (orphan : CardBillEvidence) (candidates allCards : List UserCard) (row : CardBillEvidence) :
    Option UserCard :=
  if row.cardLast4 = none then none
  else
    (single? (allCards.filter fun card => card.last4 = row.cardLast4)).filter fun card =>
      candidates.any (·.id = card.id) && linksCycle host orphan row

/-- `_explicitCardsForCycle(orphan, candidates, allCards, evidence)`. -/
def explicitCardsForCycle (orphan : CardBillEvidence) (candidates allCards : List UserCard)
    (evidence : List CardBillEvidence) : List UserCard :=
  (indexBy UserCard.id id (evidence.filterMap (cycleOwner host orphan candidates allCards))).values

/-- The `target` of a message that names no card. -/
def orphanTarget (cards : List UserCard) (evidence : List CardBillEvidence) (orphan : CardBillEvidence) :
    Option UserCard :=
  if isNamedAggregatorNonCardBill host orphan then none
  else
    let candidates := candidateCardsForEvidence host orphan cards
    match candidates with
    | [] => none
    | [card] => some card
    | _ => single? (explicitCardsForCycle host orphan candidates cards evidence)

/-- `orphanAttributed`. -/
def orphanAttributed (cards : List UserCard) (evidence : List CardBillEvidence) :
    InsertionMap JsString (List CardBillEvidence) :=
  collect (fun orphan => (orphanTarget host cards evidence orphan).map UserCard.id)
    (evidence.filter fun e => e.cardLast4 = none && e.userCardId = none)

/-- Whether the message names the card, by its id or by digits that no other card has. -/
def ownEvidence (cards : List UserCard) (card : UserCard) (e : CardBillEvidence) : Bool :=
  e.userCardId = some card.id ||
    e.userCardId = none && e.cardLast4 ≠ none && e.cardLast4 = card.last4 &&
      (cards.filter fun c => c.last4 = e.cardLast4).length = 1

/-- The messages of a card: `combined`. -/
def combined (cards : List UserCard) (evidence : List CardBillEvidence) (card : UserCard) :
    List CardBillEvidence :=
  evidence.filter (ownEvidence cards card) ++ ((orphanAttributed host cards evidence).get? card.id).getD []

end Orphans

/-! ### Cycles -/

/-- The messages of a cycle. There is a first one. -/
structure Cycle where
  first : CardBillEvidence
  rest : List CardBillEvidence := []

namespace Cycle

def rows (cycle : Cycle) : List CardBillEvidence := cycle.first :: cycle.rest

def add (cycle : Cycle) (row : CardBillEvidence) : Cycle := { cycle with rest := cycle.rest ++ [row] }

end Cycle

/-- Whether two messages are of one cycle, in `_mergeCycles`. -/
def sameCycle (r row : CardBillEvidence) : Bool :=
  match r.dueDate, row.dueDate with
  | some due, some due' => due = due'
  | _, _ => |r.statementDate.micros - row.statementDate.micros| ≤ 7 * oneDay

/-- Adds a message to the first cycle it is of, or to a new one where there is room. -/
def placeRow (maxCycles : Option ℕ) (cycles : List Cycle) (row : CardBillEvidence) : List Cycle :=
  match cycles.findIdx? fun cycle => cycle.rows.any (sameCycle · row) with
  | some i => cycles.modify i (·.add row)
  | none => if maxCycles.all (cycles.length < ·) then cycles ++ [⟨row, []⟩] else cycles

section Merge

variable (sorting : Sorting ℤ) (host : Host)

/-- The messages, the newest first. -/
def newestFirst (rows : List CardBillEvidence) : List CardBillEvidence :=
  sorting.sort (fun e => -e.statementDate.micros) rows

/-- `_mergeOne(cycle)`. -/
def mergeOne (cycle : Cycle) : CardBill :=
  let ordered := newestFirst sorting cycle.rows
  let anchor := ((ordered.find? (·.statementDateExplicit)).getD (ordered.headD cycle.first)).statementDate
  { statementDate := anchor
    dueDate := ((ordered.filterMap (·.dueDate)).find? fun due => anchor.micros ≤ due.micros).or
      (ordered.filterMap (·.dueDate)).head?
    amountDue := (ordered.filterMap (·.amountDue)).max?
    minimumDue := (ordered.filterMap (·.minimumDue)).head?
    paidToward := 0
    lastPaymentAt := none
    confidence := cycle.rows.foldl (fun best e => max best e.confidence) 0
    isAutopay := cycle.rows.any (·.isAutopay)
    statementDateVerified :=
      cycle.rows.any fun e => e.statementDateExplicit || e.isAutopay || e.userCardId ≠ none
    statementDateExplicit := cycle.rows.any (·.statementDateExplicit)
    sourceIds := (cycle.rows.filterMap (·.sourceId)).eraseDups }

/-- `_mergeCycles(rows, now, maxAge, maxCycles)`. -/
def mergeCycles (now : DateTime) (maxAge : Option ℤ) (maxCycles : Option ℕ) (rows : List CardBillEvidence) :
    List CardBill :=
  let ordered := (newestFirst sorting rows).filter fun e =>
    e.statementDate.micros ≤ now.micros &&
      maxAge.all ((host.dayOf now).micros - e.statementDate.micros ≤ ·)
  match ordered with
  | [] => []
  | first :: rest => (rest.foldl (placeRow maxCycles) [⟨first, []⟩]).map (mergeOne sorting)

/-- The ledger that the messages of a card make up, if any. -/
def ledgerOf (now : DateTime) (rows : List CardBillEvidence) : Option CardBillLedger :=
  let cycles := mergeCycles sorting host now (some (95 * oneDay)) (some 2) rows
  let history := mergeCycles sorting host now none none rows
  if rows = [] ∨ cycles = [] ∧ history = [] then none
  else some { current := cycles[0]?, previous := cycles[1]?, history := history }

/-- The ledgers before any payment. -/
def openLedgers (cards : List UserCard) (evidence : List CardBillEvidence) (now : DateTime) :
    InsertionMap JsString CardBillLedger :=
  cards.foldl (fun ledgers card =>
    (ledgerOf sorting host now (combined host cards evidence card)).elim ledgers (ledgers.set card.id)) .empty

end Merge

end PandaPay.CardBills
