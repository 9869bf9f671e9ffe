import PandaPay.SmsV2.Contract

/-!
# The shipped link rules

The rules of `rules/sms/v2/link_rules.json`. A window of `h` hours is `(h * 3600000000).round()`
microseconds.

## Main definitions

* `shippedRules`
-/

namespace PandaPay.SmsV2

/-- A whole number of hours. -/
def hours (h : ℕ) : ℕ := h * 3600000000

def linkIpo : LinkRule where
  id := js "LINK-IPO"
  eventType := .ipoApplication
  legs := [
    ⟨.holdPlaced, {
      factType := some .hold
      phase := some [.placed]
      purpose := some [.hold .ipoAsba, .hold .upiMandateBlock] }⟩,
    ⟨.holdReleased, {
      factType := some .hold
      phase := some [.released]
      purpose := some [.hold .ipoAsba, .hold .upiMandateBlock] }⟩,
    ⟨.holdConverted, {
      factType := some .hold
      phase := some [.converted]
      purpose := some [.hold .ipoAsba, .hold .upiMandateBlock] }⟩,
    ⟨.debitLeg, {
      factType := some .movement
      direction := some .debit
      purpose := some [.movement .investment]
      instrumentKind := some [.bankAccount] }⟩]
  join := { amountTolerancePct := some 100, window := hours 504, reference := some .prefer }
  singleLeg := .awaitingLeg
  priority := 120

def linkMandateCharge : LinkRule where
  id := js "LINK-MANDATE-CHARGE"
  eventType := .subscriptionCharge
  legs := [
    ⟨.original, { factType := some .mandate }⟩,
    ⟨.charge, { factType := some .movement, direction := some .debit, evidenceOnly := some false }⟩]
  join := { amountTolerancePct := some 100, window := hours 8784, reference := some .prefer }
  singleLeg := .complete
  priority := 110

def linkCardBill : LinkRule where
  id := js "LINK-CARD-BILL"
  eventType := .cardBillPayment
  legs := [
    ⟨.debitLeg, {
      factType := some .movement
      direction := some .debit
      purpose := some [.movement .cardPayment]
      instrumentKind := some [.bankAccount] }⟩,
    ⟨.creditLeg, {
      factType := some .movement
      direction := some .credit
      purpose := some [.movement .cardPayment]
      instrumentKind := some [.creditCard] }⟩]
  join := { amountTolerancePct := some 0, window := hours 72, reference := some .prefer }
  singleLeg := .complete
  priority := 100

def linkWalletTopup : LinkRule where
  id := js "LINK-WALLET-TOPUP"
  eventType := .walletTopup
  legs := [
    ⟨.debitLeg, {
      factType := some .movement
      direction := some .debit
      purpose := some [.movement .walletTopup]
      instrumentKind := some [.bankAccount, .creditCard, .debitCard, .prepaidCard] }⟩,
    ⟨.creditLeg, {
      factType := some .movement
      direction := some .credit
      purpose := some [.movement .walletTopup]
      instrumentKind := some [.wallet] }⟩]
  join := { amountTolerancePct := some 0, window := hours 48, reference := some .prefer }
  singleLeg := .complete
  priority := 100

def linkFeeOnTxn : LinkRule where
  id := js "LINK-FEE-ON-TXN"
  eventType := .fee
  legs := [
    ⟨.charge, {
      factType := some .movement
      direction := some .debit
      purpose := some [.movement .fee]
      evidenceOnly := some false }⟩,
    ⟨.original, {
      factType := some .movement
      direction := some .debit
      purpose := some [.movement .purchase, .movement .atm]
      evidenceOnly := some false }⟩]
  join := { amountTolerancePct := some 100, window := hours 1080, reference := some .prefer }
  singleLeg := .complete
  priority := 95

def linkRefund : LinkRule where
  id := js "LINK-REFUND"
  eventType := .refund
  legs := [
    ⟨.original, {
      factType := some .movement
      direction := some .debit
      purpose := some [.movement .purchase, .movement .billPayment, .movement .fee, .movement .emi]
      evidenceOnly := some false }⟩,
    ⟨.reversal, {
      factType := some .movement
      direction := some .credit
      purpose := some [.movement .refund, .movement .reversal] }⟩]
  join := { amountTolerancePct := some 100, window := hours 2880, reference := some .prefer }
  singleLeg := .complete
  priority := 90

def linkOwnTransfer : LinkRule where
  id := js "LINK-OWN-TRANSFER"
  eventType := .ownTransfer
  legs := [
    ⟨.debitLeg, {
      factType := some .movement
      direction := some .debit
      purpose := some [.movement .transfer, .movement .p2p]
      instrumentKind := some [.bankAccount] }⟩,
    ⟨.creditLeg, {
      factType := some .movement
      direction := some .credit
      purpose := some [.movement .transfer, .movement .p2p]
      instrumentKind := some [.bankAccount] }⟩]
  join := { amountTolerancePct := some 0, window := hours 24, reference := some .prefer }
  singleLeg := .complete
  priority := 80

def linkReceipt : LinkRule where
  id := js "LINK-RECEIPT"
  eventType := .purchase
  legs := [
    ⟨.duplicateNotice, {
      factType := some .movement
      direction := some .debit
      evidenceOnly := some true }⟩,
    ⟨.debitLeg, {
      factType := some .movement
      direction := some .debit
      evidenceOnly := some false }⟩]
  join := { amountTolerancePct := some 0, window := hours 72, reference := some .ignore }
  singleLeg := .review
  priority := 70

/-- The window is that of 0.1667 hours. -/
def linkDupNotify : LinkRule where
  id := js "LINK-DUP-NOTIFY"
  eventType := .purchase
  legs := [
    ⟨.debitLeg, {
      factType := some .movement
      direction := some .debit
      evidenceOnly := some false }⟩,
    ⟨.duplicateNotice, {
      factType := some .movement
      direction := some .debit
      evidenceOnly := some false }⟩]
  join := { amountTolerancePct := some 0, window := 600120000, reference := some .prefer }
  singleLeg := .complete
  priority := 60

def linkDupInvestDebit : LinkRule where
  id := js "LINK-DUP-INVEST-DEBIT"
  eventType := .investment
  legs := [
    ⟨.debitLeg, {
      factType := some .movement
      direction := some .debit
      purpose := some [.movement .investment]
      evidenceOnly := some false }⟩,
    ⟨.duplicateNotice, {
      factType := some .movement
      direction := some .debit
      purpose := some [.movement .investment]
      evidenceOnly := some false }⟩]
  join := { amountTolerancePct := some 0, window := hours 24, reference := some .prefer }
  singleLeg := .complete
  priority := 55

def linkDupInvestCredit : LinkRule where
  id := js "LINK-DUP-INVEST-CREDIT"
  eventType := .investmentWithdrawal
  legs := [
    ⟨.creditLeg, {
      factType := some .movement
      direction := some .credit
      purpose := some [.movement .investment]
      evidenceOnly := some false }⟩,
    ⟨.duplicateNotice, {
      factType := some .movement
      direction := some .credit
      purpose := some [.movement .investment]
      evidenceOnly := some false }⟩]
  join := { amountTolerancePct := some 0, window := hours 24, reference := some .prefer }
  singleLeg := .complete
  priority := 55

/-- The rules of the file, in its order. -/
def shippedRules : List LinkRule :=
  [linkIpo, linkMandateCharge, linkCardBill, linkWalletTopup, linkFeeOnTxn, linkRefund,
    linkOwnTransfer, linkReceipt, linkDupNotify, linkDupInvestDebit, linkDupInvestCredit]

end PandaPay.SmsV2
