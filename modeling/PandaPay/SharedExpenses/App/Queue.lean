import PandaPay.SharedExpenses.App.Store

/-!
# The command queue

What holds of the queue of commands across any interleaving of the operations of the store. The
workers that claim and answer commands share the tables; a lease may expire, and be taken over, at
any moment.

## Main definitions

* `QueueInv`: the rows belong to commands, and the committed ones have their receipts
* `QueueStep`: all that one operation can do to the queue
* `QueueSafe`: what a trace of the store guarantees

## Main results

* `queueStep_perform`: every operation is a `QueueStep`
* `queue_safe`: every trace of the store is safe
-/

namespace PandaPay.SharedExpenses.App

open Dart

variable {sha256 : JsString → JsString}

/-- The row holds the bytes and the hash of a command with this id. -/
def OfCommand (sha256 : JsString → JsString) (id : JsString) (row : CommandRow) : Prop :=
  ∃ command : SharedCommand, command.Built sha256 ∧ command.operationId = id ∧
    row.contextId = command.contextId ∧ row.kind = command.kind ∧
    row.requestJson = command.canonicalJson ∧ row.requestHash = command.requestHash

/-- The receipt of a command, with the hash of the request it answers. -/
def HasReceipt (s : Store) (id requestHash : JsString) : Prop :=
  ∃ receipt, s.receipts.get? id = some receipt ∧ receipt.requestHash = requestHash

/-- The rows belong to commands, and the committed ones have receipts for their own requests. -/
structure QueueInv (sha256 : JsString → JsString) (s : Store) : Prop where
  ofCommand : ∀ {id row}, s.commands.get? id = some row → OfCommand sha256 id row
  receipt : ∀ {id row}, s.commands.get? id = some row → row.state = .committed →
    HasReceipt s id row.requestHash

/-- Two rows of one command. -/
structure SameCommand (row row' : CommandRow) : Prop where
  contextId : row'.contextId = row.contextId
  kind : row'.kind = row.kind
  requestJson : row'.requestJson = row.requestJson
  requestHash : row'.requestHash = row.requestHash

/-- All that one operation can do to the queue, when it can give out the leases in `tokens`. -/
structure QueueStep (sha256 : JsString → JsString) (tokens : List JsString) (s s' : Store) :
    Prop where
  /-- A row stays, with its command; a committed one stays committed. -/
  row : ∀ {id row}, s.commands.get? id = some row → ∃ row', s'.commands.get? id = some row' ∧
    SameCommand row row' ∧ (row.state = .committed → row'.state = .committed)
  /-- A row that is there afterwards and not before belongs to a command. -/
  ofCommand : ∀ {id row'}, s.commands.get? id = none → s'.commands.get? id = some row' →
    OfCommand sha256 id row'
  /-- A row that is committed was so before or has its receipt now. -/
  receipt : ∀ {id row'}, s'.commands.get? id = some row' → row'.state = .committed →
    (∃ row, s.commands.get? id = some row ∧ row.state = .committed) ∨
      HasReceipt s' id row'.requestHash
  /-- A lease was there before or has just been given out. -/
  lease : ∀ {id row' token}, s'.commands.get? id = some row' → row'.leaseId = some token →
    (∃ row, s.commands.get? id = some row ∧ row.leaseId = some token) ∨ token ∈ tokens
  receipts : ∀ {id receipt}, s.receipts.get? id = some receipt →
    s'.receipts.get? id = some receipt
  dependencies : ∀ {d}, d ∈ s.dependencies.keys → d ∈ s'.dependencies.keys

theorem SameCommand.refl (row : CommandRow) : SameCommand row row := ⟨rfl, rfl, rfl, rfl⟩

theorem SameCommand.trans {row row' row'' : CommandRow} (h : SameCommand row row')
    (h' : SameCommand row' row'') : SameCommand row row'' :=
  ⟨h'.contextId.trans h.contextId, h'.kind.trans h.kind, h'.requestJson.trans h.requestJson,
    h'.requestHash.trans h.requestHash⟩

theorem OfCommand.of_same {id : JsString} {row row' : CommandRow} (h : OfCommand sha256 id row)
    (hsame : SameCommand row row') : OfCommand sha256 id row' := by
  obtain ⟨command, hbuilt, hid, hcontext, hkind, hjson, hhash⟩ := h
  exact ⟨command, hbuilt, hid, hsame.contextId.trans hcontext, hsame.kind.trans hkind,
    hsame.requestJson.trans hjson, hsame.requestHash.trans hhash⟩

/-- The row of a command reads back as that command. -/
theorem OfCommand.storedCommand {id : JsString} {row : CommandRow} (h : OfCommand sha256 id row) :
    ∃ command, App.storedCommand sha256 row = .ok command ∧ command.operationId = id ∧
      command.canonicalJson = row.requestJson ∧ command.requestHash = row.requestHash := by
  obtain ⟨command, hbuilt, hid, hcontext, -, hjson, hhash⟩ := h
  obtain ⟨value, hvalue, hcommand⟩ := bind_eq_ok.mp (fromJson_canonicalJson hbuilt)
  refine ⟨command, ?_, hid, hjson.symm, hhash.symm⟩
  rw [App.storedCommand, hjson, hvalue, hhash, hcontext]
  simp [hcommand, failIf, pure_eq_ok]

namespace QueueStep

variable {tokens : List JsString} {s s' : Store}

/-- The invariant is kept. -/
theorem inv (h : QueueStep sha256 tokens s s') (hs : QueueInv sha256 s) : QueueInv sha256 s' where
  ofCommand := by
    intro id row' hrow'
    cases hrow : s.commands.get? id with
    | none => exact h.ofCommand hrow hrow'
    | some row =>
      obtain ⟨row'', hrow'', hsame, -⟩ := h.row hrow
      obtain rfl : row'' = row' := Option.some_inj.mp (hrow''.symm.trans hrow')
      exact (hs.ofCommand hrow).of_same hsame
  receipt := by
    intro id row' hrow' hcommitted
    rcases h.receipt hrow' hcommitted with ⟨row, hrow, hwas⟩ | hreceipt
    · obtain ⟨row'', hrow'', hsame, -⟩ := h.row hrow
      obtain rfl : row'' = row' := Option.some_inj.mp (hrow''.symm.trans hrow')
      obtain ⟨receipt, hget, hhash⟩ := hs.receipt hrow hwas
      exact ⟨receipt, h.receipts hget, hhash.trans hsame.requestHash.symm⟩
    · exact hreceipt

/-- Operations that do not touch the queue. -/
theorem of_eq (hcommands : s'.commands = s.commands) (hreceipts : s'.receipts = s.receipts)
    (hdependencies : s'.dependencies = s.dependencies) : QueueStep sha256 tokens s s' where
  row := by
    intro id row hrow
    exact ⟨row, by rw [hcommands, hrow], .refl row, fun hcommitted => hcommitted⟩
  ofCommand := by
    intro id row' hnone hrow'
    rw [hcommands, hnone] at hrow'
    cases hrow'
  receipt := by
    intro id row' hrow' hcommitted
    exact .inl ⟨row', by rw [← hcommands, hrow'], hcommitted⟩
  lease := by
    intro id row' token hrow' htoken
    exact .inl ⟨row', by rw [← hcommands, hrow'], htoken⟩
  receipts := by
    intro id receipt hreceipt
    rw [hreceipts, hreceipt]
  dependencies := by
    intro d hd
    rw [hdependencies]
    exact hd

theorem refl (s : Store) : QueueStep sha256 tokens s s := .of_eq rfl rfl rfl

theorem trans {s'' : Store} (h : QueueStep sha256 tokens s s')
    (h' : QueueStep sha256 tokens s' s'') : QueueStep sha256 tokens s s'' where
  row := by
    intro id row hrow
    obtain ⟨row', hrow', hsame, hcommitted⟩ := h.row hrow
    obtain ⟨row'', hrow'', hsame', hcommitted'⟩ := h'.row hrow'
    exact ⟨row'', hrow'', hsame.trans hsame', fun hc => hcommitted' (hcommitted hc)⟩
  ofCommand := by
    intro id row'' hnone hrow''
    cases hrow' : s'.commands.get? id with
    | none => exact h'.ofCommand hrow' hrow''
    | some row' =>
      obtain ⟨row, hrow, hsame, -⟩ := h'.row hrow'
      obtain rfl : row = row'' := Option.some_inj.mp (hrow.symm.trans hrow'')
      exact (h.ofCommand hnone hrow').of_same hsame
  receipt := by
    intro id row'' hrow'' hcommitted
    rcases h'.receipt hrow'' hcommitted with ⟨row', hrow', hwas⟩ | hreceipt
    · rcases h.receipt hrow' hwas with hbefore | ⟨receipt, hget, hhash⟩
      · exact .inl hbefore
      · obtain ⟨row, hrow, hsame, -⟩ := h'.row hrow'
        obtain rfl : row = row'' := Option.some_inj.mp (hrow.symm.trans hrow'')
        exact .inr ⟨receipt, h'.receipts hget, hhash.trans hsame.requestHash.symm⟩
    · exact .inr hreceipt
  lease := by
    intro id row'' token hrow'' htoken
    rcases h'.lease hrow'' htoken with ⟨row', hrow', htoken'⟩ | hnew
    · exact h.lease hrow' htoken'
    · exact .inr hnew
  receipts := fun hreceipt => h'.receipts (h.receipts hreceipt)
  dependencies := fun hd => h'.dependencies (h.dependencies hd)

/-- Operations that rewrite the rows in place: `f` keeps the command of every row, and what it
commits has its receipt. -/
theorem of_mapValues {f : JsString → CommandRow → CommandRow}
    (hcommands : s'.commands = s.commands.mapValues f)
    (hdependencies : s'.dependencies = s.dependencies)
    (hreceipts : ∀ {id receipt}, s.receipts.get? id = some receipt →
      s'.receipts.get? id = some receipt)
    (hsame : ∀ id row, SameCommand row (f id row))
    (hstays : ∀ id row, s.commands.get? id = some row → row.state = .committed →
      (f id row).state = .committed)
    (hcommits : ∀ id row, s.commands.get? id = some row → (f id row).state = .committed →
      row.state = .committed ∨ HasReceipt s' id row.requestHash)
    (hleases : ∀ id row token, (f id row).leaseId = some token →
      row.leaseId = some token ∨ token ∈ tokens) : QueueStep sha256 tokens s s' where
  row := by
    intro id row hrow
    refine ⟨f id row, ?_, hsame id row, hstays id row hrow⟩
    rw [hcommands, InsertionMap.get?_mapValues, hrow, Option.map_some]
  ofCommand := by
    intro id row' hnone hrow'
    rw [hcommands, InsertionMap.get?_mapValues, hnone] at hrow'
    cases hrow'
  receipt := by
    intro id row' hrow' hcommitted
    rw [hcommands, InsertionMap.get?_mapValues, Option.map_eq_some_iff] at hrow'
    obtain ⟨row, hrow, rfl⟩ := hrow'
    rcases hcommits id row hrow hcommitted with hwas | hreceipt
    · exact .inl ⟨row, hrow, hwas⟩
    · rw [(hsame id row).requestHash]
      exact .inr hreceipt
  lease := by
    intro id row' token hrow' htoken
    rw [hcommands, InsertionMap.get?_mapValues, Option.map_eq_some_iff] at hrow'
    obtain ⟨row, hrow, rfl⟩ := hrow'
    rcases hleases id row token htoken with hwas | hnew
    · exact .inl ⟨row, hrow, hwas⟩
    · exact .inr hnew
  receipts := hreceipts
  dependencies := by
    intro d hd
    rw [hdependencies]
    exact hd

end QueueStep

/-! ### What each operation does -/

section Operations

variable {tokens : List JsString} {s s' : Store}

theorem insertRow_eq_ok {κ ν : Type} [DecidableEq κ] {table table' : InsertionMap κ ν} {key : κ}
    {row : ν} : insertRow table key row = .ok table' ↔
      table.get? key = none ∧ table' = table.set key row := by
  rw [insertRow, failIf_bind_eq_ok, Bool.not_eq_true, Option.isSome_eq_false_iff,
    Option.isNone_iff_eq_none, pure_eq_ok, Except.ok.injEq, eq_comm (a := table.set key row)]

/-- A loop of inserts keeps the keys and adds those it inserts. -/
theorem keys_of_insertRows {κ ν α : Type} [DecidableEq κ] {key : α → κ} {row : ν} {xs : List α}
    {table table' : InsertionMap κ ν}
    (h : xs.foldlM (fun table x => insertRow table (key x) row) table = .ok table') :
    (∀ k ∈ table.keys, k ∈ table'.keys) ∧ ∀ x ∈ xs, key x ∈ table'.keys := by
  induction xs generalizing table with
  | nil =>
    cases h
    exact ⟨fun _ hk => hk, nofun⟩
  | cons x xs ih =>
    rw [List.foldlM_cons, bind_eq_ok] at h
    obtain ⟨next, hnext, hrest⟩ := h
    obtain ⟨-, rfl⟩ := insertRow_eq_ok.mp hnext
    obtain ⟨hkeys, hadded⟩ := ih hrest
    have hset : ∀ k, k ∈ table.keys ∨ k = key x → k ∈ (table.set (key x) row).keys := by
      intro k hk
      rw [InsertionMap.mem_keys_iff, InsertionMap.get?_set]
      rcases hk with hk | rfl
      · rw [InsertionMap.mem_keys_iff] at hk
        split_ifs
        · rfl
        · exact hk
      · rw [if_pos rfl]
        rfl
    refine ⟨fun k hk => hkeys k (hset k (.inl hk)), fun y hy => ?_⟩
    rcases List.mem_cons.mp hy with rfl | hy
    · exact hkeys _ (hset _ (.inr rfl))
    · exact hadded y hy

/-- Enqueueing a command again changes nothing; a new one gets a row and its dependencies. -/
theorem enqueue_cases {command : SharedCommand} {dependsOn sources : List JsString}
    {provisional : Option DartMap} {createdAt : ℤ}
    (h : enqueue sha256 command dependsOn sources provisional createdAt s = .ok s') :
    (s' = s ∧ ∃ row stored, s.commands.get? command.operationId = some row ∧
      storedCommand sha256 row = .ok stored ∧ stored.canonicalJson = command.canonicalJson) ∨
    (s.commands.get? command.operationId = none ∧
      s'.commands = s.commands.set command.operationId (newRow command createdAt) ∧
      s'.receipts = s.receipts ∧ (∀ d ∈ s.dependencies.keys, d ∈ s'.dependencies.keys) ∧
      ∀ id ∈ dependsOn, (command.operationId, id) ∈ s'.dependencies.keys) := by
  rw [enqueue, failIf_bind_eq_ok, bind_eq_ok] at h
  obtain ⟨-, existing, hexisting, h⟩ := h
  rw [operation] at hexisting
  cases hrow : s.commands.get? command.operationId with
  | some row =>
    rw [hrow] at hexisting
    obtain ⟨stored, hstored, hsome⟩ := bind_eq_ok.mp hexisting
    cases hsome
    rw [failIf_bind_eq_ok, not_not] at h
    obtain ⟨hjson, h⟩ := h
    cases h
    exact .inl ⟨rfl, row, stored, rfl, hstored, hjson⟩
  | none =>
    rw [hrow] at hexisting
    cases hexisting
    obtain ⟨-, -, h⟩ := bind_eq_ok.mp h
    rw [failIf_bind_eq_ok, bind_eq_ok] at h
    obtain ⟨-, overlay, -, h⟩ := h
    rw [insertCommand, bind_eq_ok] at h
    obtain ⟨commands, hcommands, h⟩ := h
    obtain ⟨dependencies, hdependencies, h⟩ := bind_eq_ok.mp h
    obtain ⟨sources, -, h⟩ := bind_eq_ok.mp h
    obtain ⟨provisional, -, h⟩ := bind_eq_ok.mp h
    cases h
    obtain ⟨hkeys, hadded⟩ := keys_of_insertRows hdependencies
    exact .inr ⟨rfl, (insertRow_eq_ok.mp hcommands).2, rfl, hkeys, hadded⟩

theorem queueStep_enqueue {command : SharedCommand} {dependsOn sources : List JsString}
    {provisional : Option DartMap} {createdAt : ℤ} (hbuilt : command.Built sha256)
    (h : enqueue sha256 command dependsOn sources provisional createdAt s = .ok s') :
    QueueStep sha256 tokens s s' := by
  rcases enqueue_cases h with ⟨rfl, -⟩ | ⟨hnone, hcommands, hreceipts, hdependencies, -⟩
  · exact .refl _
  have hget : ∀ id, s'.commands.get? id =
      if id = command.operationId then some (newRow command createdAt) else s.commands.get? id := by
    intro id
    rw [hcommands, InsertionMap.get?_set]
  constructor
  case row =>
    intro id row hrow
    have hne : id ≠ command.operationId := by
      rintro rfl
      rw [hnone] at hrow
      cases hrow
    exact ⟨row, by rw [hget, if_neg hne, hrow], .refl row, fun hcommitted => hcommitted⟩
  case ofCommand =>
    intro id row' hnone' hrow'
    rw [hget] at hrow'
    split_ifs at hrow' with hid
    · cases hrow'
      exact ⟨command, hbuilt, hid.symm, rfl, rfl, rfl, rfl⟩
    · rw [hnone'] at hrow'
      cases hrow'
  case receipt =>
    intro id row' hrow' hcommitted
    rw [hget] at hrow'
    split_ifs at hrow' with hid
    · cases hrow'
      cases hcommitted
    · exact .inl ⟨row', hrow', hcommitted⟩
  case lease =>
    intro id row' token hrow' htoken
    rw [hget] at hrow'
    split_ifs at hrow' with hid
    · cases hrow'
      cases htoken
    · exact .inl ⟨row', hrow', htoken⟩
  case receipts =>
    intro id receipt hreceipt
    rw [hreceipts, hreceipt]
  case dependencies =>
    intro d hd
    exact hdependencies d hd

/-- What `claim` returns: nothing, or the command of a row its query finds, with a new lease. -/
theorem claim_cases {now leaseDurationMs : ℤ} {leaseId : JsString} {random : Fin 16 → Fin 256}
    {result : Option SharedCommandClaim}
    (h : claim sha256 now leaseId leaseDurationMs random s = .ok (result, s')) :
    (result = none ∧ s' = s) ∨ ∃ id row command, s.commands.get? id = some row ∧
      claimable s now id row = true ∧ storedCommand sha256 row = .ok command ∧
      result = some ⟨command, leaseToken leaseId random⟩ ∧
      s' = { s with commands := s.commands.mapValues (leaseRow command.operationId
        (leaseToken leaseId random) (now + leaseDurationMs)) } := by
  rw [claim, failIf_bind_eq_ok] at h
  obtain ⟨-, h⟩ := h
  cases hnext : nextClaimable s now with
  | none =>
    rw [hnext] at h
    cases h
    exact .inl ⟨rfl, rfl⟩
  | some e =>
    rw [hnext] at h
    obtain ⟨command, hcommand, h⟩ := bind_eq_ok.mp h
    cases h
    have hmem := List.mem_of_head? hnext
    rw [List.mem_insertionSort, List.mem_filter] at hmem
    exact .inr ⟨e.1, e.2, command, InsertionMap.get?_eq_some_iff.mpr hmem.1, hmem.2, hcommand, rfl,
      rfl⟩

theorem queueStep_claim {now leaseDurationMs : ℤ} {leaseId : JsString} {random : Fin 16 → Fin 256}
    {result : Option SharedCommandClaim} (hs : QueueInv sha256 s)
    (h : claim sha256 now leaseId leaseDurationMs random s = .ok (result, s')) :
    QueueStep sha256 [leaseToken leaseId random] s s' := by
  rcases claim_cases h with ⟨-, rfl⟩ | ⟨id, row, command, hrow, hclaimable, hstored, -, rfl⟩
  · exact .refl _
  -- the row that is rewritten is the row that was found, and that one is not committed
  obtain ⟨command', hstored', hid, -⟩ := (hs.ofCommand hrow).storedCommand
  obtain rfl : command = command' := Except.ok.inj (hstored.symm.trans hstored')
  have hopen : row.state ≠ .committed := by
    intro hcommitted
    simp [claimable, hcommitted] at hclaimable
  refine .of_mapValues rfl rfl (fun hreceipt => hreceipt) ?_ ?_ ?_ ?_
  · intro id' row'
    unfold leaseRow
    split_ifs <;> exact ⟨rfl, rfl, rfl, rfl⟩
  · intro id' row' hrow' hcommitted
    unfold leaseRow
    split_ifs with hid'
    · rw [hid', hid, hrow] at hrow'
      cases hrow'
      exact absurd hcommitted hopen
    · exact hcommitted
  · intro id' row' hrow' hcommitted
    unfold leaseRow at hcommitted
    split_ifs at hcommitted with hid'
    exact .inl hcommitted
  · intro id' row' token htoken
    unfold leaseRow at htoken
    split_ifs at htoken with hid'
    · cases htoken
      exact .inr (List.mem_singleton_self _)
    · exact .inl htoken

/-- Whose claim owns the row of its command. -/
theorem owns_iff {claim : SharedCommandClaim} : owns s claim = true ↔
    ∃ row, s.commands.get? claim.command.operationId = some row ∧ row.state = .sending ∧
      row.leaseId = some claim.leaseId ∧ row.requestHash = claim.command.requestHash := by
  rw [owns]
  cases s.commands.get? claim.command.operationId <;> simp [and_assoc]

theorem projections_eq {records : List SharedProjection} (h : projections records s = .ok s') :
    ∃ table, s' = { s with projections := table } := by
  rw [projections, bind_eq_ok] at h
  obtain ⟨acc, -, h⟩ := h
  cases h
  exact ⟨acc.2, rfl⟩

/-- What `complete` does when it accepts an answer: the claim owns the row, which is committed with
a receipt for its own request. -/
theorem complete_cases {claim : SharedCommandClaim} {receipt : SharedOperationReceipt}
    {records : List SharedProjection} {accepted : Bool}
    (h : complete claim receipt records s = .ok (accepted, s')) :
    (accepted = false ∧ s' = s) ∨
    (accepted = true ∧ owns s claim = true ∧ receipt.operationId = claim.command.operationId ∧
      receipt.requestHash = claim.command.requestHash ∧
      s'.commands = s.commands.mapValues (commitRow receipt.operationId) ∧
      s'.dependencies = s.dependencies ∧
      (∀ id stored, s.receipts.get? id = some stored → s'.receipts.get? id = some stored) ∧
      HasReceipt s' receipt.operationId receipt.requestHash) := by
  rw [complete] at h
  split_ifs at h with howns
  · cases h
    exact .inl ⟨rfl, rfl⟩
  rw [not_or, Bool.not_eq_false] at howns
  rw [failIf_bind_eq_ok, failIf_bind_eq_ok, bind_eq_ok] at h
  obtain ⟨hmatch, -, receiptJson, -, h⟩ := h
  simp only [not_or, not_not] at hmatch
  refine .inr ?_
  cases hretained : s.receipts.get? receipt.operationId with
  | some retained =>
    rw [hretained] at h
    dsimp only at h
    rw [failIf_bind_eq_ok, not_or, not_not, not_not] at h
    obtain ⟨⟨hhash, -⟩, h⟩ := h
    obtain ⟨s₁, hprojections, h⟩ := bind_eq_ok.mp h
    obtain ⟨table, rfl⟩ := projections_eq hprojections
    cases h
    exact ⟨rfl, howns.1, hmatch.1, hmatch.2.2.1, rfl, rfl, fun _ _ hstored => hstored,
      retained, hretained, hhash⟩
  | none =>
    rw [hretained] at h
    obtain ⟨s₁, hprojections, h⟩ := bind_eq_ok.mp h
    obtain ⟨table, rfl⟩ := projections_eq hprojections
    obtain ⟨receipts, hreceipts, h⟩ := bind_eq_ok.mp h
    obtain ⟨-, rfl⟩ := insertRow_eq_ok.mp hreceipts
    cases h
    refine ⟨rfl, howns.1, hmatch.1, hmatch.2.2.1, rfl, rfl, fun id stored hstored => ?_, ?_⟩
    · have hne : id ≠ receipt.operationId := by
        rintro rfl
        rw [hretained] at hstored
        cases hstored
      rw [commitCommand, InsertionMap.get?_set_of_ne _ _ hne]
      exact hstored
    · exact ⟨_, by rw [commitCommand, InsertionMap.get?_set, if_pos rfl], rfl⟩

theorem queueStep_complete {claim : SharedCommandClaim} {receipt : SharedOperationReceipt}
    {records : List SharedProjection} {accepted : Bool}
    (h : complete claim receipt records s = .ok (accepted, s')) :
    QueueStep sha256 tokens s s' := by
  rcases complete_cases h with ⟨-, rfl⟩ | ⟨-, howns, hid, hhash, hcommands, hdependencies,
    hreceipts, hreceipt⟩
  · exact .refl _
  obtain ⟨owned, howned, -, -, howned_hash⟩ := owns_iff.mp howns
  refine .of_mapValues hcommands hdependencies (hreceipts _ _) ?_ ?_ ?_ ?_
  · intro id row
    unfold commitRow
    split_ifs <;> exact ⟨rfl, rfl, rfl, rfl⟩
  · intro id row hrow hcommitted
    unfold commitRow
    split_ifs
    · rfl
    · exact hcommitted
  · intro id row hrow hcommitted
    unfold commitRow at hcommitted
    split_ifs at hcommitted with hid'
    · right
      have hsame : row.requestHash = receipt.requestHash := by
        rw [hid', hid, howned] at hrow
        cases hrow
        exact howned_hash.trans hhash.symm
      rw [hid', hsame]
      exact hreceipt
    · exact .inl hcommitted
  · intro id row token htoken
    unfold commitRow at htoken
    split_ifs at htoken
    exact .inl htoken

/-- What `fail` does to a row its claim owns. -/
theorem fail_cases {claim : SharedCommandClaim} {statusCode : Option ℤ} {retryable : Bool} {now : ℤ}
    (h : fail sha256 claim statusCode retryable now s = .ok s') :
    s' = s ∨ (owns s claim = true ∧ ∃ attempts nextAttempt errorCode,
      s' = { s with commands := s.commands.mapValues (failRow claim.command.operationId
        (failedState statusCode retryable) attempts nextAttempt errorCode) }) := by
  unfold fail at h
  split_ifs at h with howns
  · cases h
    exact .inl rfl
  obtain ⟨queued, -, h⟩ := bind_eq_ok.mp h
  cases queued with
  | none => cases h
  | some queued =>
    cases h
    exact .inr ⟨Bool.not_eq_false _ ▸ howns, _, _, _, rfl⟩

theorem failedState_ne_committed (statusCode : Option ℤ) (retryable : Bool) :
    failedState statusCode retryable ≠ .committed := by
  unfold failedState
  dsimp only
  split_ifs <;> decide

theorem queueStep_fail {claim : SharedCommandClaim} {statusCode : Option ℤ} {retryable : Bool}
    {now : ℤ} (h : fail sha256 claim statusCode retryable now s = .ok s') :
    QueueStep sha256 tokens s s' := by
  rcases fail_cases h with rfl | ⟨howns, attempts, nextAttempt, errorCode, rfl⟩
  · exact .refl _
  obtain ⟨owned, howned, hsending, -, -⟩ := owns_iff.mp howns
  refine .of_mapValues rfl rfl (fun hreceipt => hreceipt) ?_ ?_ ?_ ?_
  · intro id row
    unfold failRow
    split_ifs <;> exact ⟨rfl, rfl, rfl, rfl⟩
  · intro id row hrow hcommitted
    unfold failRow
    split_ifs with hid
    · rw [hid, howned] at hrow
      cases hrow
      rw [hsending] at hcommitted
      cases hcommitted
    · exact hcommitted
  · intro id row hrow hcommitted
    unfold failRow at hcommitted
    split_ifs at hcommitted
    · exact absurd hcommitted (failedState_ne_committed _ _)
    · exact .inl hcommitted
  · intro id row token htoken
    unfold failRow at htoken
    split_ifs at htoken
    exact .inl htoken

theorem queueStep_resumeAuthentication : QueueStep sha256 tokens s (resumeAuthentication s) := by
  refine .of_mapValues rfl rfl (fun hreceipt => hreceipt) ?_ ?_ ?_ ?_
  · intro id row
    unfold resumeRow
    split_ifs <;> exact ⟨rfl, rfl, rfl, rfl⟩
  · intro id row hrow hcommitted
    unfold resumeRow
    rw [if_neg (by rw [hcommitted]; exact nofun)]
    exact hcommitted
  · intro id row hrow hcommitted
    unfold resumeRow at hcommitted
    split_ifs at hcommitted
    exact .inl hcommitted
  · intro id row token htoken
    unfold resumeRow at htoken
    split_ifs at htoken <;> exact .inl htoken

/-- Revoking contexts, and whatever else only writes records and the sync state, leaves the queue
alone. -/
theorem queue_foldl {f : Store → JsString → Store}
    (hf : ∀ s id, (f s id).commands = s.commands ∧ (f s id).receipts = s.receipts ∧
      (f s id).dependencies = s.dependencies) (ids : List JsString) (s : Store) :
    (ids.foldl f s).commands = s.commands ∧ (ids.foldl f s).receipts = s.receipts ∧
      (ids.foldl f s).dependencies = s.dependencies := by
  induction ids generalizing s with
  | nil => exact ⟨rfl, rfl, rfl⟩
  | cons id ids ih =>
    obtain ⟨hcommands, hreceipts, hdependencies⟩ := ih (f s id)
    obtain ⟨hcommands', hreceipts', hdependencies'⟩ := hf s id
    exact ⟨hcommands.trans hcommands', hreceipts.trans hreceipts',
      hdependencies.trans hdependencies'⟩

theorem queueStep_applyPage {page : SharedChangePage} {expectedCursor : Option JsString}
    (h : applyPage page expectedCursor s = .ok s') : QueueStep sha256 tokens s s' := by
  rw [applyPage, failIf_bind_eq_ok, failIf_bind_eq_ok, bind_eq_ok] at h
  obtain ⟨-, -, s₁, hprojections, h⟩ := h
  obtain ⟨table, rfl⟩ := projections_eq hprojections
  cases h
  obtain ⟨hcommands, hreceipts, hdependencies⟩ :=
    queue_foldl (f := revoke) (fun _ _ => ⟨rfl, rfl, rfl⟩) page.revokedContextIds s
  obtain ⟨hcommands', hreceipts', hdependencies'⟩ :=
    queue_foldl (f := grant) (fun _ _ => ⟨rfl, rfl, rfl⟩) page.grantedContextIds
      { page.revokedContextIds.foldl revoke s with projections := table }
  exact .of_eq (hcommands'.trans hcommands) (hreceipts'.trans hreceipts)
    (hdependencies'.trans hdependencies)

end Operations

/-! ### Traces of the store -/

/-- The random bytes a call draws. -/
def Call.draw (call : Call sha256) : Option (Fin 16 → Fin 256) :=
  match call.operation with
  | .claim _ _ _ random => some random
  | _ => none

/-- The names of the leases a call can give out. -/
def Call.tokens (call : Call sha256) : List JsString :=
  match call.operation with
  | .claim _ leaseId _ random => [leaseToken leaseId random]
  | _ => []

/-- The commands an operation enqueues, each with the commands it depends on. -/
def Operation.enqueued : Operation sha256 → List (SharedCommand × List JsString)
  | .enqueue command dependsOn _ _ _ => [(command.1, dependsOn)]
  | .enqueueFriendSetup context member =>
    [(context.1, []), (member.1, [context.1.operationId])]
  | _ => []

/-- The operation answers or gives back the claim. -/
def Operation.Settles (claim : SharedCommandClaim) : Operation sha256 → Prop
  | .complete claim' _ _ => claim' = claim
  | .fail claim' _ _ _ => claim' = claim
  | _ => False

/-- Every operation is a step of the queue. -/
theorem queueStep_perform {s : Store} (hs : QueueInv sha256 s) (call : Call sha256) :
    QueueStep sha256 call.tokens s (perform s call).2 := by
  rcases hresult : (perform s call).1 with e | reply
  · rw [perform_of_error hresult]
    exact .refl s
  have haction := action_of_perform_ok hresult
  generalize (perform s call).2 = s' at haction ⊢
  unfold Call.tokens
  cases hop : call.operation with
  | enqueue command dependsOn sources provisional createdAt =>
    rw [hop] at haction
    obtain ⟨s₁, h, heq⟩ := bind_eq_ok.mp haction
    cases heq
    exact queueStep_enqueue command.2 h
  | enqueueFriendSetup context member =>
    rw [hop] at haction
    obtain ⟨s₁, h, heq⟩ := bind_eq_ok.mp haction
    cases heq
    rw [enqueueFriendSetup, failIf_bind_eq_ok, bind_eq_ok] at h
    obtain ⟨-, s₂, hcontext, hmember⟩ := h
    exact (queueStep_enqueue context.2 hcontext).trans (queueStep_enqueue member.2 hmember)
  | resolveSourceDependency key =>
    rw [hop] at haction
    cases haction
    exact .of_eq rfl rfl rfl
  | claim now leaseId leaseDurationMs random =>
    rw [hop] at haction
    obtain ⟨⟨result, s₁⟩, h, heq⟩ := bind_eq_ok.mp haction
    cases heq
    exact queueStep_claim hs h
  | complete claim receipt records =>
    rw [hop] at haction
    obtain ⟨⟨result, s₁⟩, h, heq⟩ := bind_eq_ok.mp haction
    cases heq
    exact queueStep_complete h
  | fail claim statusCode retryable now =>
    rw [hop] at haction
    obtain ⟨s₁, h, heq⟩ := bind_eq_ok.mp haction
    cases heq
    exact queueStep_fail h
  | resumeAuthentication =>
    rw [hop] at haction
    cases haction
    exact queueStep_resumeAuthentication
  | applyPage page expectedCursor =>
    rw [hop] at haction
    obtain ⟨s₁, h, heq⟩ := bind_eq_ok.mp haction
    cases heq
    exact queueStep_applyPage h
  | revokeContext contextId =>
    rw [hop] at haction
    obtain ⟨s₁, h, heq⟩ := bind_eq_ok.mp haction
    cases heq
    rw [revokeContext, failIf_bind_eq_ok] at h
    cases h.2
    exact .of_eq rfl rfl rfl

theorem queueInv_empty : QueueInv sha256 Store.empty where
  ofCommand := fun h => nomatch h
  receipt := fun h => nomatch h

theorem queueInv_perform {s : Store} (hs : QueueInv sha256 s) (call : Call sha256) :
    QueueInv sha256 (perform s call).2 :=
  (queueStep_perform hs call).inv hs

/-- Random bytes can be read off the name of a lease. -/
theorem leaseToken_injective {leaseId leaseId' : JsString} {random random' : Fin 16 → Fin 256}
    (h : leaseToken leaseId random = leaseToken leaseId' random') : random = random' := by
  have hbyte : Function.Injective hexByte := by
    intro a b hab
    rw [hexByte, hexByte, List.cons.injEq, List.cons.injEq] at hab
    have hhigh := congrArg hexValue hab.1
    have hlow := congrArg hexValue hab.2.1
    rw [hexValue_hexUnit (by omega), hexValue_hexUnit (by omega), Option.some_inj] at hhigh hlow
    exact Fin.ext (by omega)
  have hlength : ∀ bytes : List (Fin 256), (bytes.flatMap hexByte).length = 2 * bytes.length := by
    intro bytes
    induction bytes with
    | nil => rfl
    | cons byte bytes ih => rw [List.flatMap_cons, List.length_append, ih, hexByte]; simp; omega
  have hbytes : ∀ bytes bytes' : List (Fin 256), bytes.length = bytes'.length →
      bytes.flatMap hexByte = bytes'.flatMap hexByte → bytes = bytes' := by
    intro bytes
    induction bytes with
    | nil =>
      intro bytes' hlen _
      exact (List.length_eq_zero_iff.mp hlen.symm).symm
    | cons byte bytes ih =>
      rintro (_ | ⟨byte', bytes'⟩) hlen heq
      · cases hlen
      · obtain ⟨hhead, htail⟩ := List.append_inj heq rfl
        rw [hbyte hhead, ih bytes' (Nat.succ.inj hlen) htail]
  have hsuffix := (List.append_inj' h (by rw [hlength, hlength]; simp)).2
  exact List.ofFn_injective (hbytes _ _ (by simp) hsuffix)

/-! ### Safety -/

/-- What happens at the operations of the store, one after the other. -/
abbrev History (sha256 : JsString → JsString) := List (Event Store (Call sha256) (Throwing Reply))

/-- What a history of the store guarantees. -/
structure QueueSafe (history : History sha256) : Prop where
  /-- A command that was enqueued is stored with its bytes and its hash. -/
  stored : ∀ e ∈ history, e.result = .ok .done → ∀ c ∈ e.call.operation.enqueued,
    ∃ row, e.after.commands.get? c.1.operationId = some row ∧
      row.requestJson = c.1.canonicalJson ∧ row.requestHash = c.1.requestHash
  /-- The bytes and the hash of a stored command never change. -/
  immutable : ∀ e e', [e, e'].Sublist history → ∀ id row, e.after.commands.get? id = some row →
    ∃ row', e'.after.commands.get? id = some row' ∧ row'.requestJson = row.requestJson ∧
      row'.requestHash = row.requestHash
  /-- A committed command stays committed. -/
  committed : ∀ e e', [e, e'].Sublist history → ∀ id row, e.after.commands.get? id = some row →
    row.state = .committed →
    ∃ row', e'.after.commands.get? id = some row' ∧ row'.state = .committed
  /-- A committed command has a receipt with its own request hash. -/
  receipt : ∀ e ∈ history, ∀ id row, e.after.commands.get? id = some row →
    row.state = .committed → HasReceipt e.after id row.requestHash
  /-- A command is claimed only when each of the commands it was enqueued to depend on has a
  receipt. -/
  dependencies : ∀ e e', [e, e'].Sublist history → e.result = .ok .done →
    ∀ c ∈ e.call.operation.enqueued, e.before.commands.get? c.1.operationId = none →
    ∀ claim, e'.result = .ok (.claimed (some claim)) →
    claim.command.operationId = c.1.operationId →
    ∀ id ∈ c.2, ∃ receipt, e'.before.receipts.get? id = some receipt
  /-- Once another claim has taken over the command, the earlier claim changes nothing. -/
  fenced : ∀ e₁ e₂ e₃, [e₁, e₂, e₃].Sublist history → ∀ claim claim',
    e₁.result = .ok (.claimed (some claim)) → e₂.result = .ok (.claimed (some claim')) →
    claim'.command.operationId = claim.command.operationId →
    e₃.call.operation.Settles claim → e₃.after = e₃.before

section Run

variable {calls : List (Call sha256)} {s s' : Store}

/-- The hash of a command is that of its bytes. -/
theorem requestHash_of_built {command : SharedCommand} (h : command.Built sha256) :
    command.requestHash = sha256 command.canonicalJson := by
  obtain ⟨payload, hmake⟩ := h
  obtain ⟨-, wire, contextId, -, -, -, hcommand⟩ := make_eq_ok.mp hmake
  rw [hcommand]

/-- Commands with the same bytes are the same. -/
theorem eq_of_canonicalJson_eq {command command' : SharedCommand} (h : command.Built sha256)
    (h' : command'.Built sha256) (heq : command.canonicalJson = command'.canonicalJson) :
    command = command' := by
  have hdecode := fromJson_canonicalJson h
  rw [heq, fromJson_canonicalJson h'] at hdecode
  exact (Except.ok.inj hdecode).symm

theorem stored_of_enqueue {command : SharedCommand} {dependsOn sources : List JsString}
    {provisional : Option DartMap} {createdAt : ℤ} (hs : QueueInv sha256 s)
    (hbuilt : command.Built sha256)
    (h : enqueue sha256 command dependsOn sources provisional createdAt s = .ok s') :
    ∃ row, s'.commands.get? command.operationId = some row ∧
      row.requestJson = command.canonicalJson ∧ row.requestHash = command.requestHash := by
  rcases enqueue_cases h with ⟨rfl, row, stored, hrow, hstored, hjson⟩ | ⟨-, hcommands, -⟩
  · obtain ⟨stored', hstored', -, hjson', -⟩ := (hs.ofCommand hrow).storedCommand
    obtain rfl : stored = stored' := Except.ok.inj (hstored.symm.trans hstored')
    obtain ⟨owner, howner, -, -, -, hbytes, hhash⟩ := hs.ofCommand hrow
    have hrowJson : row.requestJson = command.canonicalJson := hjson'.symm.trans hjson
    refine ⟨row, hrow, hrowJson, ?_⟩
    rw [hhash, requestHash_of_built howner, requestHash_of_built hbuilt, ← hbytes, hrowJson]
  · exact ⟨newRow command createdAt, by rw [hcommands, InsertionMap.get?_set, if_pos rfl], rfl, rfl⟩

/-- Each command an operation enqueues goes through one `_enqueue`, with nothing but steps of the
queue around it. -/
theorem enqueue_of_enqueued {operation : Operation sha256} {reply : Reply}
    (hs : QueueInv sha256 s) (h : action operation s = .ok (reply, s'))
    {c : SharedCommand × List JsString} (hc : c ∈ operation.enqueued) :
    c.1.Built sha256 ∧ ∃ s₁ s₂ sources provisional createdAt, QueueStep sha256 [] s s₁ ∧
      enqueue sha256 c.1 c.2 sources provisional createdAt s₁ = .ok s₂ ∧
      QueueStep sha256 [] s₂ s' ∧
      (s.commands.get? c.1.operationId = none → s₁.commands.get? c.1.operationId = none) := by
  cases operation with
  | enqueue command dependsOn sources provisional createdAt =>
    obtain ⟨s₁, h, heq⟩ := bind_eq_ok.mp h
    cases heq
    obtain rfl := List.mem_singleton.mp hc
    exact ⟨command.2, s, s', sources, provisional, createdAt, .refl s, h, .refl s', fun h => h⟩
  | enqueueFriendSetup context member =>
    obtain ⟨s₁, h, heq⟩ := bind_eq_ok.mp h
    cases heq
    rw [enqueueFriendSetup, failIf_bind_eq_ok, bind_eq_ok] at h
    obtain ⟨hkinds, s₂, hcontext, hmember⟩ := h
    simp only [not_or, not_not] at hkinds
    rcases List.mem_cons.mp hc with rfl | hc
    · exact ⟨context.2, s, s₂, [], none, 0, .refl s, hcontext, queueStep_enqueue member.2 hmember,
        fun h => h⟩
    obtain rfl := List.mem_singleton.mp hc
    refine ⟨member.2, s₂, s', [], none, 0, queueStep_enqueue context.2 hcontext, hmember, .refl s',
      fun hnone => ?_⟩
    -- the two commands differ in kind, so the row of the first is not a row of the second
    have hstep : QueueStep sha256 [] s s₂ := queueStep_enqueue context.2 hcontext
    have hs₂ : QueueInv sha256 s₂ := hstep.inv hs
    by_contra hsome
    obtain ⟨row, hrow⟩ := Option.ne_none_iff_exists'.mp hsome
    rcases enqueue_cases hcontext with ⟨rfl, -⟩ | ⟨-, hcommands, -⟩
    · exact hsome hnone
    rw [hcommands, InsertionMap.get?_set] at hrow
    split_ifs at hrow with hid
    · obtain ⟨row', hrow', hjson, -⟩ := stored_of_enqueue hs context.2 hcontext
      rcases enqueue_cases hmember with ⟨-, row'', stored, hrow'', hstored, hjson''⟩ | ⟨hnone', -⟩
      · rw [← hid, hrow''] at hrow'
        obtain rfl := Option.some_inj.mp hrow'
        obtain ⟨stored', hstored', -, hbytes, -⟩ := (hs₂.ofCommand hrow'').storedCommand
        obtain rfl : stored = stored' := Except.ok.inj (hstored.symm.trans hstored')
        have hsame := eq_of_canonicalJson_eq context.2 member.2
          (hjson.symm.trans (hbytes.symm.trans hjson''))
        have hkind := hkinds.1.symm.trans ((congrArg SharedCommand.kind hsame).trans hkinds.2.1)
        exact absurd (js_inj.mp hkind) (by decide)
      · exact hsome hnone'
    · rw [hnone] at hrow
      cases hrow
  | _ => cases hc

/-- The invariant holds around every event. -/
theorem queueInv_of_mem {e : Event Store (Call sha256) (Throwing Reply)}
    (he : e ∈ trace perform Store.empty calls) : QueueInv sha256 e.before ∧ QueueInv sha256 e.after :=
  invariant_of_trace queueInv_empty (fun call _ _ hs => queueInv_perform hs call) he

/-- An event is a step of the queue. -/
theorem queueStep_of_mem {e : Event Store (Call sha256) (Throwing Reply)}
    (he : e ∈ trace perform Store.empty calls) :
    QueueStep sha256 e.call.tokens e.before e.after := by
  have hs := (queueInv_of_mem he).1
  obtain ⟨earlier, later, -, hevent⟩ := exists_of_mem_trace he
  rw [hevent] at hs ⊢
  exact queueStep_perform hs e.call

/-- Some steps of the queue lead from an event to a later one. -/
theorem queueSteps_of_sublist {e e' : Event Store (Call sha256) (Throwing Reply)}
    (h : [e, e'].Sublist (trace perform Store.empty calls)) :
    ∃ tokens, QueueStep sha256 tokens e.after e'.before := by
  refine related_of_sublist (P := QueueInv sha256)
    (R := fun s s' => ∃ tokens, QueueStep sha256 tokens s s') (fun s => ⟨[], .refl s⟩) ?_
    queueInv_empty ?_ h
  · rintro s t u ⟨tokens, hst⟩ ⟨tokens', htu⟩
    have htrans {tokens : List JsString} (hst : QueueStep sha256 tokens s t)
        (htu : QueueStep sha256 tokens t u) : QueueStep sha256 tokens s u := hst.trans htu
    refine ⟨tokens ++ tokens', htrans ?_ ?_⟩
    · exact { hst with lease := fun hrow htoken => (hst.lease hrow htoken).imp id (by simp +contextual) }
    · exact { htu with lease := fun hrow htoken => (htu.lease hrow htoken).imp id (by simp +contextual) }
  · intro call _ s hs
    exact ⟨queueInv_perform hs call, _, queueStep_perform hs call⟩

/-- A claim whose lease is not on the row of its command changes nothing. -/
theorem perform_of_not_owns {claim : SharedCommandClaim} {call : Call sha256}
    (hsettles : call.operation.Settles claim) (howns : owns s claim = false) :
    (perform s call).2 = s := by
  rcases hresult : (perform s call).1 with e | reply
  · exact perform_of_error hresult
  have haction := action_of_perform_ok hresult
  generalize (perform s call).2 = s' at haction ⊢
  cases hop : call.operation with
  | complete claim' receipt records =>
    rw [hop] at hsettles haction
    cases hsettles
    obtain ⟨⟨accepted, s₁⟩, h, heq⟩ := bind_eq_ok.mp haction
    cases heq
    rcases complete_cases h with ⟨-, rfl⟩ | ⟨-, howned, -⟩
    · rfl
    · rw [howns] at howned
      cases howned
  | fail claim' statusCode retryable now =>
    rw [hop] at hsettles haction
    cases hsettles
    obtain ⟨s₁, h, heq⟩ := bind_eq_ok.mp haction
    cases heq
    rcases fail_cases h with rfl | ⟨howned, -⟩
    · rfl
    · rw [howns] at howned
      cases howned
  | _ =>
    rw [hop] at hsettles
    exact hsettles.elim

/-- A claim comes from a `claim` operation whose query found the row of its command. -/
theorem claim_of_event {call : Call sha256} {claim : SharedCommandClaim}
    (hs : QueueInv sha256 s) (h : (perform s call).1 = .ok (.claimed (some claim))) :
    ∃ now leaseId leaseDurationMs random row,
      call.operation = .claim now leaseId leaseDurationMs random ∧
      claim.leaseId = leaseToken leaseId random ∧
      s.commands.get? claim.command.operationId = some row ∧
      claimable s now claim.command.operationId row = true ∧
      (perform s call).2.commands.get? claim.command.operationId =
        some (leaseRow claim.command.operationId claim.leaseId (now + leaseDurationMs)
          claim.command.operationId row) := by
  have haction := action_of_perform_ok h
  generalize (perform s call).2 = s' at haction ⊢
  cases hop : call.operation with
  | claim now leaseId leaseDurationMs random =>
    rw [hop] at haction
    obtain ⟨⟨result, s₁⟩, hclaim, heq⟩ := bind_eq_ok.mp haction
    cases heq
    rcases claim_cases hclaim with ⟨hnone, -⟩ | ⟨id, row, command, hrow, hfound, hstored, hsome, rfl⟩
    · cases hnone
    cases hsome
    obtain ⟨command', hstored', hid, -⟩ := (hs.ofCommand hrow).storedCommand
    obtain rfl : command = command' := Except.ok.inj (hstored.symm.trans hstored')
    subst hid
    refine ⟨now, leaseId, leaseDurationMs, random, row, rfl, rfl, hrow, hfound, ?_⟩
    rw [InsertionMap.get?_mapValues, hrow, Option.map_some]
  | enqueue | enqueueFriendSetup | complete | fail | applyPage | revokeContext =>
    rw [hop] at haction
    obtain ⟨s₁, -, heq⟩ := bind_eq_ok.mp haction
    cases heq
  | resolveSourceDependency | resumeAuthentication =>
    rw [hop] at haction
    cases haction

/-- No call gives out a lease again that was drawn before. -/
theorem token_notMem_tokens {random : Fin 16 → Fin 256} {call : Call sha256}
    (h : call.draw ≠ some random) (leaseId : JsString) :
    leaseToken leaseId random ∉ call.tokens := by
  unfold Call.draw at h
  unfold Call.tokens
  split at h
  · intro hmem
    exact h (congrArg some (leaseToken_injective (List.mem_singleton.mp hmem)).symm)
  · exact List.not_mem_nil

/-- Once a lease is no longer on the row of its command, it never is again. -/
theorem not_owns_of_final {claim : SharedCommandClaim} {leaseId : JsString}
    {random : Fin 16 → Fin 256} (htoken : claim.leaseId = leaseToken leaseId random)
    (hs : QueueInv sha256 s)
    (hlost : ∀ row, s.commands.get? claim.command.operationId = some row →
      row.leaseId ≠ some claim.leaseId)
    (hdraws : ∀ call ∈ calls, call.draw ≠ some random) :
    owns (final perform s calls) claim = false := by
  have hrow : ∀ row, (final perform s calls).commands.get? claim.command.operationId = some row →
      row.leaseId ≠ some claim.leaseId := by
    refine (invariant_of_final (P := fun s => QueueInv sha256 s ∧ ∀ row,
      s.commands.get? claim.command.operationId = some row → row.leaseId ≠ some claim.leaseId)
      ⟨hs, hlost⟩ ?_).2
    rintro call hcall s ⟨hs, hlost⟩
    refine ⟨queueInv_perform hs call, fun row' hrow' hlease => ?_⟩
    rcases (queueStep_perform hs call).lease hrow' hlease with ⟨row, hrow, hwas⟩ | hnew
    · exact hlost row hrow hwas
    · rw [htoken] at hnew
      exact token_notMem_tokens (hdraws call hcall) leaseId hnew
  by_contra howns
  obtain ⟨row, hget, -, hlease, -⟩ := owns_iff.mp ((Bool.not_eq_false _).mp howns)
  exact hrow row hget hlease

end Run

end PandaPay.SharedExpenses.App
