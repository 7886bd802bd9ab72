/-
  What the trace of a connection shows.

  The batches in the event channel continue one another (`Sequenced`), and the
  evidence that is retained and not acknowledged stays in the ledger of raw
  frames, under its own number and with its permit (`Connection.Ledger`).
-/
import Rspm.Ws.Retention
import Rspm.Ws.Admission

namespace Rspm

/-! ## What a trace shows -/

/-- The payload of a data frame; the text `PONG` is none. -/
def Message.data : Message → Option (List UInt8)
  | .text bytes => if bytes = pongText then none else some bytes
  | .binary bytes => some bytes
  | .frame payload => some payload
  | .ping _ | .pong _ | .close => none

namespace Entry

def ownAct : Entry → Option (Σ e : ConnectionAct, e.Answer)
  | .own a => some a
  | .other _ => none

def sent : Entry → Option AuthenticatedUserEventBatch
  | .own ⟨.send batch, _⟩ => some batch
  | _ => none

/-- A data frame that came with its receipt. -/
def received : Entry → Option (List UInt8)
  | .own ⟨.poll, .received (some (.ok message)) (some _)⟩ => message.data
  | _ => none

/-- `acknowledge_raw_frame_durable` took the frame. -/
def Acknowledges (n : ℕ) : Entry → Prop
  | .own _ => False
  | .other c => c.input = .acknowledgeRawFrameDurable n ∧ c.out = .bool true

end Entry

/-- The retention of the evidence, as it stands in a trace. -/
def Entry.retains (evidence : AuthenticatedUserRawFrame) : Entry :=
  .own ⟨.retainRawFrame evidence, true⟩

namespace Connection

variable (x : Connection)

/-- The actions of the task, oldest first. -/
def own : List (Σ e : ConnectionAct, e.Answer) := x.trace.filterMap Entry.ownAct

/-- The batches in the event channel, oldest first. -/
def sent : List AuthenticatedUserEventBatch := x.trace.filterMap Entry.sent

def received : List (List UInt8) := x.trace.filterMap Entry.received

/-- The evidence was retained, and not acknowledged since. -/
def Awaits (evidence : AuthenticatedUserRawFrame) : Prop :=
  ∃ before after, x.trace = before ++ Entry.retains evidence :: after ∧
    ∀ entry ∈ after, ¬ entry.Acknowledges evidence.frameSequence

end Connection

/-- The batch is that of the frame the task received last: it was given the range, the number
    and the snapshot, and its evidence was retained, one right after the other. -/
structure Sends (own : List (Σ e : ConnectionAct, e.Answer)) (batch : AuthenticatedUserEventBatch)
    (message : Message) (receipt : AuthenticatedUserFrameReceipt) (range : TransportSequenceRange)
    (frameSequence : ℕ) (evidence : AuthenticatedUserRawFrame) : Prop where
  steps : ∃ (earlier : List (Σ e : ConnectionAct, e.Answer)) (state : AuthenticatedUserWsState),
    own = earlier ++ [⟨.poll, .received (some (.ok message)) (some receipt)⟩,
      ⟨.reserveTransportSequences batch.sequenceWidth, some range⟩,
      ⟨.reserveRawFrameSequence, some frameSequence⟩, ⟨.snapshot, state⟩,
      ⟨.retainRawFrame evidence, true⟩]
  rawEvidence : batch.rawEvidence = some evidence
  frameSequence : evidence.frameSequence = frameSequence
  first : evidence.firstTransportSequence = range.first
  last : evidence.lastTransportSequence = range.last
  receipt : evidence.receipt = receipt
  bytes : message.data = some evidence.bytes

/-! ## What was sent -/

/-- The end of the ranges of the batches. -/
def reach (sent : List AuthenticatedUserEventBatch) : ℕ :=
  (sent.map AuthenticatedUserEventBatch.sequenceWidth).sum

theorem reach_snoc (sent : List AuthenticatedUserEventBatch) (batch : AuthenticatedUserEventBatch) :
    reach (sent ++ [batch]) = reach sent + batch.sequenceWidth := by simp [reach]

/-- The batches of the event channel continue one another. -/
structure Sequenced (sent : List AuthenticatedUserEventBatch) : Prop where
  consecutive : ∀ before batch after, sent = before ++ batch :: after →
    batch.firstTransportSequence = reach before + 1
  inReach : ∀ a ∈ sent, a.firstTransportSequence + (a.sequenceWidth - 1) ≤ reach sent
  disjoint : sent.Pairwise fun a b =>
    a.firstTransportSequence + (a.sequenceWidth - 1) < b.firstTransportSequence
  numbered : sent.Pairwise fun a b => a.frameSequence < b.frameSequence
  generations : sent.Pairwise fun a b => a.socketGeneration ≤ b.socketGeneration
  last_of_gap : sent.Pairwise fun a b =>
    a.frameGap.isSome → a.socketGeneration < b.socketGeneration

theorem Sequenced.nil : Sequenced [] := by
  refine ⟨fun before batch after h => ?_, nofun, .nil, .nil, .nil, .nil⟩
  cases before <;> cases h

theorem pairwise_snoc {α : Type} {R : α → α → Prop} {l : List α} {a : α} (hl : l.Pairwise R)
    (ha : ∀ b ∈ l, R b a) : (l ++ [a]).Pairwise R := by
  refine List.pairwise_append.2 ⟨hl, List.pairwise_singleton R a, fun b hb c hc => ?_⟩
  obtain rfl := List.mem_singleton.1 hc
  exact ha b hb

theorem Sequenced.snoc {sent : List AuthenticatedUserEventBatch}
    {batch : AuthenticatedUserEventBatch} (h : Sequenced sent)
    (hfirst : batch.firstTransportSequence = reach sent + 1)
    (hn : ∀ a ∈ sent, a.frameSequence < batch.frameSequence)
    (hg : ∀ a ∈ sent, a.socketGeneration ≤ batch.socketGeneration ∧
      (a.frameGap.isSome → a.socketGeneration < batch.socketGeneration)) :
    Sequenced (sent ++ [batch]) where
  consecutive before b after hsplit := by
    rcases Machine.split_concat hsplit with ⟨rfl, rfl, -⟩ | ⟨rest, -, hold⟩
    · exact hfirst
    · exact h.consecutive before b rest hold
  inReach a ha := by
    have hwidth := batch.sequenceWidth_pos
    rw [reach_snoc]
    rcases List.mem_append.1 ha with ha | ha
    · exact (h.inReach a ha).trans (Nat.le_add_right _ _)
    · obtain rfl := List.mem_singleton.1 ha
      omega
  disjoint := pairwise_snoc h.disjoint fun a ha => by
    have hle := h.inReach a ha
    omega
  numbered := pairwise_snoc h.numbered hn
  generations := pairwise_snoc h.generations fun a ha => (hg a ha).1
  last_of_gap := pairwise_snoc h.last_of_gap fun a ha => (hg a ha).2

/-! ## The ledger of the cell -/

namespace Entry

/-- The entry tells of the call what the ledger of raw frames depends on. -/
structure Records (entry : Entry) (c : CellCall) : Prop where
  retained : ∀ evidence, entry = retains evidence →
    c.input = .retainRawFrame evidence ∧ c.out = .bool true
  acknowledged : ∀ n, c.input = .acknowledgeRawFrameDurable n → c.out = .bool true →
    entry.Acknowledges n

end Entry

/-- The retained frames, their numbers and their permits. -/
structure Connection.Ledger (x : Connection) : Prop where
  coherent : Coherent x.cell
  permits : x.cell.rawFrames.size + x.held + x.cell.rawFrameCapacity = maxPendingRawFrames
  keys : ∀ n, x.cell.rawFrames.contains n = true → n ≤ x.cell.state.rawFrameSequence
  awaited : ∀ evidence, x.Awaits evidence →
    x.cell.rawFrames[evidence.frameSequence]? = some evidence

theorem Connection.awaits_snoc {x x' : Connection} {entry : Entry}
    (ht : x'.trace = x.trace ++ [entry]) {evidence : AuthenticatedUserRawFrame}
    (h : x'.Awaits evidence) :
    entry = .retains evidence ∨
      x.Awaits evidence ∧ ¬ entry.Acknowledges evidence.frameSequence := by
  obtain ⟨before, after, hsplit, hafter⟩ := h
  rw [ht] at hsplit
  rcases Machine.split_concat hsplit with ⟨-, hentry, -⟩ | ⟨rest, rfl, hold⟩
  · exact .inl hentry
  · refine .inr ⟨⟨before, rest, hold, fun e he => hafter e ?_⟩, hafter entry ?_⟩
    · exact List.mem_append_left _ he
    · exact List.mem_append_right _ (List.mem_singleton_self _)

namespace Connection.Ledger

variable {x x' : Connection} {c : CellCall} {entry : Entry}

/-- A call keeps the ledger, if what it retains has a new number. -/
theorem call (h : x.Ledger) (hpre : c.pre = x.cell) (hpost : x'.cell = c.post)
    (ht : x'.trace = x.trace ++ [entry]) (hrecords : entry.Records c)
    (hheld : x'.held + c.input.gives = x.held + c.input.takes c.out)
    (hfresh : ∀ evidence, c.input = .retainRawFrame evidence →
      x.cell.rawFrames.contains evidence.frameSequence = false ∧
        evidence.frameSequence ≤ x.cell.state.rawFrameSequence) : x'.Ledger where
  coherent := by
    rw [hpost]
    exact Coherent.step (hpre ▸ h.coherent)
  permits := by
    have hp := c.permits
    have hold := h.permits
    rw [hpre] at hp
    rw [hpost]
    omega
  keys n hn := by
    have hgrows := c.grows.rawFrameSequence
    rw [hpost] at hn ⊢
    rw [hpre] at hgrows
    refine le_trans ?_ hgrows
    cases c.rawMove with
    | kept hk => exact h.keys n (by rwa [hk, hpre] at hn)
    | released hi hr hc hk =>
      rw [hk, hpre] at hn
      exact h.keys n (Std.TreeMap.contains_of_contains_erase hn)
    | retained hi hr hc hk | replaced hi hr hc hk =>
      rw [hk, hpre, Std.TreeMap.contains_insert] at hn
      simp only [Bool.or_eq_true, beq_iff_eq, Std.compare_eq_iff_eq] at hn
      rcases hn with rfl | hn
      · exact (hfresh _ hi).2
      · exact h.keys n hn
  awaited evidence ha := by
    rw [hpost]
    rcases awaits_snoc ht ha with hentry | ⟨hold, hnack⟩
    · obtain ⟨hi, hr⟩ := hrecords.retained evidence hentry
      cases c.rawMove with
      | kept hk hout => cases hr.symm.trans (hout evidence hi)
      | replaced hi' hr' => cases hr.symm.trans hr'
      | released hi' => cases hi.symm.trans hi'
      | retained hi' hr' hc hk =>
        cases hi.symm.trans hi'
        rw [hk, Std.TreeMap.getElem?_insert_self]
    · have hget := h.awaited evidence hold
      have hmem : x.cell.rawFrames.contains evidence.frameSequence = true := by
        rw [Std.TreeMap.contains_eq_isSome_getElem?, hget]
        rfl
      cases c.rawMove with
      | kept hk => rwa [hk, hpre]
      | @released n hi hr hc hk =>
        have hne : n ≠ evidence.frameSequence := by
          rintro rfl
          exact hnack (hrecords.acknowledged _ hi hr)
        rw [hk, hpre, Std.TreeMap.getElem?_erase, if_neg (by simpa using hne)]
        exact hget
      | @retained evidence' hi hr hc hk | @replaced evidence' hi hr hc hk =>
        have hne : evidence'.frameSequence ≠ evidence.frameSequence := by
          intro heq
          have hf := (hfresh evidence' hi).1
          rw [heq, hmem] at hf
          cases hf
        rw [hk, hpre, Std.TreeMap.getElem?_insert, if_neg (by simpa using hne)]
        exact hget

/-- An action that does not touch the cell keeps the ledger. -/
theorem stay (h : x.Ledger) (hcell : x'.cell = x.cell) (hheld : x'.held = x.held)
    (ht : x'.trace = x.trace ++ [entry]) (hentry : ∀ evidence, entry ≠ .retains evidence) :
    x'.Ledger where
  coherent := hcell ▸ h.coherent
  permits := by rw [hcell, hheld]; exact h.permits
  keys := by rw [hcell]; exact h.keys
  awaited evidence ha := by
    rw [hcell]
    rcases awaits_snoc ht ha with he | ⟨hold, -⟩
    · exact absurd he (hentry evidence)
    · exact h.awaited evidence hold

end Connection.Ledger

end Rspm
