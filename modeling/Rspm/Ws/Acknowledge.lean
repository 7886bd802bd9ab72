/-
  Acknowledgements in any order.

  `IsFrontier` is the sequence that a set of acknowledgements reaches without a
  gap.  While the backlog has room, any order of the same acknowledgements ends
  at the frontier of their union (`acks_in_room`).  A full backlog refuses the
  missing head too, although the head would have drained it.
-/
import Rspm.Ws.Durability

namespace Rspm

/-! ## The frontier of a set of acknowledgements -/

/-- `n` is how far the acknowledged sequences reach from `durable`, up to `transport`. -/
structure IsFrontier (durable transport : ℕ) (acked : Finset ℕ) (n : ℕ) : Prop where
  durable_le : durable ≤ n
  le_transport : n ≤ transport
  reached : Finset.Ioc durable n ⊆ acked
  stops : n = transport ∨ n + 1 ∉ acked

namespace IsFrontier

variable {durable transport n m s : ℕ} {acked : Finset ℕ}

theorem le (h : IsFrontier durable transport acked n) (h' : IsFrontier durable transport acked m) :
    n ≤ m := by
  by_contra hlt
  have hle := h.le_transport
  have hdurable := h'.durable_le
  rcases h'.stops with hs | hs
  · omega
  · exact hs (h.reached (Finset.mem_Ioc.2 ⟨by omega, by omega⟩))

theorem unique (h : IsFrontier durable transport acked n)
    (h' : IsFrontier durable transport acked m) : n = m :=
  le_antisymm (h.le h') (h'.le h)

/-- Nothing new beyond a head that is missing. -/
theorem refl (hd : durable ≤ transport) (hh : durable + 1 ∉ acked) :
    IsFrontier durable transport acked durable :=
  ⟨le_rfl, hd, by simp, .inr hh⟩

/-- What is left above a frontier, with one more sequence. -/
theorem sdiff_insert (h : IsFrontier durable transport acked n) (hnm : n ≤ m) (hs : n < s) :
    insert s (acked \ Finset.Ioc durable n) \ Finset.Ioc n m =
      insert s acked \ Finset.Ioc durable m := by
  have hd := h.durable_le
  ext a
  simp only [Finset.mem_sdiff, Finset.mem_insert, Finset.mem_Ioc]
  by_cases ha : a = s
  · subst ha
    simp only [true_or, true_and]
    omega
  · simp only [ha, false_or]
    by_cases hm : a ∈ acked
    · simp only [hm, true_and]; omega
    · simp only [hm, false_and]

/-- A frontier that goes on from a frontier. -/
theorem trans (h : IsFrontier durable transport acked n)
    (h' : IsFrontier n transport (insert s (acked \ Finset.Ioc durable n)) m) :
    IsFrontier durable transport (insert s acked) m := by
  refine ⟨h.durable_le.trans h'.durable_le, h'.le_transport, ?_, h'.stops.imp_right ?_⟩
  · intro a ha
    rw [Finset.mem_Ioc] at ha
    by_cases hn : a ≤ n
    · exact Finset.mem_insert_of_mem (h.reached (Finset.mem_Ioc.2 ⟨ha.1, hn⟩))
    · have hm := h'.reached (Finset.mem_Ioc.2 ⟨not_le.1 hn, ha.2⟩)
      exact Finset.insert_subset_insert s Finset.sdiff_subset hm
  · intro hstop hin
    have hle := h'.durable_le
    refine hstop ?_
    rcases Finset.mem_insert.1 hin with heq | hin
    · exact heq ▸ Finset.mem_insert_self _ _
    · refine Finset.mem_insert_of_mem (Finset.mem_sdiff.2 ⟨hin, ?_⟩)
      rw [Finset.mem_Ioc]
      omega

end IsFrontier

/-! ## One acknowledgement -/

namespace StateCell

variable {cell : StateCell} {sequence : ℕ}

/-- The cell after its durable frontier moved to `n`. -/
def drainedTo (cell : StateCell) (n : ℕ) (durableOutOfOrder : Finset ℕ) : StateCell :=
  { cell with
    durableOutOfOrder
    state := { cell.state with durableSequence := n }
    stateTx := { cell.state with durableSequence := n } }

/-- An acknowledgement that finds room moves the frontier and sets no flag. -/
theorem acknowledgeDurable_of_room (ho : cell.isOpen) (hp : cell.durablePoisoned = false)
    (hT : cell.state.transportSequence ≤ u64Max)
    (hd : cell.state.durableSequence ≤ cell.state.transportSequence)
    (hs : cell.state.durableSequence < sequence) (hle : sequence ≤ cell.state.transportSequence)
    (hroom : cell.durableOutOfOrder.card < maxDurableOutOfOrder) :
    ∃ n, cellMachine.step cell (.acknowledgeDurable sequence) =
        (cell.drainedTo n (insert sequence cell.durableOutOfOrder \
          Finset.Ioc cell.state.durableSequence n), .bool true) ∧
      IsFrontier cell.state.durableSequence cell.state.transportSequence
        (insert sequence cell.durableOutOfOrder) n := by
  obtain ⟨n, hn, hdn, hnT, hsub, hstop⟩ := advanceDurable_spec hT
    (cell.state.transportSequence - cell.state.durableSequence) cell.state.durableSequence
    (insert sequence cell.durableOutOfOrder) hd le_rfl
  refine ⟨n, ?_, hdn, hnT, hsub, hstop⟩
  have hzero : ¬ (sequence = 0 ∨ sequence > cell.state.transportSequence) := by omega
  have hold : ¬ sequence ≤ cell.state.durableSequence := by omega
  have hfull : ¬ (cell.durableOutOfOrder.card ≥ maxDurableOutOfOrder ∧
      sequence ∉ cell.durableOutOfOrder) := by omega
  simp [cellMachine, perform, acknowledgeDurable, lock, ho.1, ho.2, hp, hzero, hold, hfull, hn,
    Locked.map, Locked.settle, drainedTo]

/-- An acknowledgement that finds the backlog full, and is not in it, is refused. -/
theorem acknowledgeDurable_of_full (ho : cell.isOpen) (hp : cell.durablePoisoned = false)
    (hs : cell.state.durableSequence < sequence) (hle : sequence ≤ cell.state.transportSequence)
    (hfull : maxDurableOutOfOrder ≤ cell.durableOutOfOrder.card)
    (hm : sequence ∉ cell.durableOutOfOrder) :
    (cellMachine.step cell (.acknowledgeDurable sequence)).2 = .bool false ∧
      (cellMachine.step cell (.acknowledgeDurable sequence)).1.state =
        { cell.state with consumerClosed := true, deliveryGap := true }.advanceGapVersion.1 := by
  have hzero : ¬ (sequence = 0 ∨ sequence > cell.state.transportSequence) := by omega
  have hold : ¬ sequence ≤ cell.state.durableSequence := by omega
  have hgate : cell.durableOutOfOrder.card ≥ maxDurableOutOfOrder ∧
      sequence ∉ cell.durableOutOfOrder := ⟨hfull, hm⟩
  simp [cellMachine, perform, acknowledgeDurable, lock, ho.1, ho.2, hp, hzero, hold, hgate,
    Locked.map, Locked.settle]

end StateCell

/-! ## The backlog of a run -/

/-- The last call acknowledged the sequence, or an earlier one did. -/
theorem acknowledged_snoc {cs : List CellCall} {c : CellCall} {s : ℕ} :
    Acknowledged (cs ++ [c]) s ↔
      Acknowledged cs s ∨ c.input = .acknowledgeDurable s ∧ c.out = .bool true := by
  simp [Acknowledged, or_and_right, exists_or]

/-- The backlog holds the acknowledgements above the frontier, and never the next sequence. -/
structure Backlogged (cs : List CellCall) (books : Books) : Prop where
  le_transport : ∀ s ∈ books.durableOutOfOrder, s ≤ books.state.transportSequence
  head : books.state.durableSequence + 1 ∉ books.durableOutOfOrder
  kept : ∀ s, Acknowledged cs s → s ≤ books.state.durableSequence ∨ s ∈ books.durableOutOfOrder

/-- A call that acknowledges nothing, and leaves the ledger alone. -/
theorem Backlogged.snoc {cs : List CellCall} {c : CellCall} {books books' : Books}
    (h : Backlogged cs books) (hn : ∀ s, c.input = .acknowledgeDurable s → c.out ≠ .bool true)
    (ht : books.state.transportSequence ≤ books'.state.transportSequence)
    (hd : books'.state.durableSequence = books.state.durableSequence)
    (ho : books'.durableOutOfOrder = books.durableOutOfOrder) : Backlogged (cs ++ [c]) books' where
  le_transport s hs := (h.le_transport s (ho ▸ hs)).trans ht
  head := by rw [hd, ho]; exact h.head
  kept s hs := by
    rw [hd, ho]
    rcases acknowledged_snoc.1 hs with hs | ⟨hi, hr⟩
    · exact h.kept s hs
    · exact absurd hr (hn s hi)

theorem Backlogged.call {cs : List CellCall} {c : CellCall} (hs : Sound c.pre.books)
    (h : Backlogged cs c.pre.books) : Backlogged (cs ++ [c]) c.post.books := by
  have ho := c.outcome
  generalize hb : c.post.books = books, hr : c.out = r, hop : c.input = op at ho ⊢
  have hinert : ∀ {state : AuthenticatedUserWsState} {books' : Books},
      (∀ s, op ≠ .acknowledgeDurable s) ∨ r ≠ .bool true → LedgerStep state books'.state →
      state.transportSequence = c.pre.state.transportSequence →
      state.durableSequence = c.pre.state.durableSequence →
      books'.durableOutOfOrder = c.pre.durableOutOfOrder → Backlogged (cs ++ [c]) books' :=
    fun hn hstep ht hd => h.snoc
      (fun s hi hout => hn.elim (fun hn => hn s (hop ▸ hi)) (fun hn => hn (hr ▸ hout)))
      (ht.ge.trans hstep.transport) (hstep.durable.trans hd)
  cases ho with
  | refused hg hu =>
    exact hinert (.inr (by rintro rfl; cases hg))
      (.of_ledgerCounters c.pre.failClosedAfterPoison_ledgerCounters) rfl rfl rfl
  | answers ha =>
    refine ⟨h.le_transport, h.head, fun s hs => ?_⟩
    rcases acknowledged_snoc.1 hs with hs | ⟨hi, hout⟩
    · exact h.kept s hs
    · subst hop hr
      rw [hi, hout] at ha
      cases ha with
      | nothing hg => cases hg
      | durable hz hd => exact .inl hd
  | acts hopen ha =>
    cases ha with
    | update hu => exact hinert (.inl (by rintro s rfl; cases hu)) (.transition hu) rfl rfl rfl
    | retained | released => exact hinert (.inl (by simp)) (.of_ledgerCounters rfl) rfl rfl rfl
    | replaced | strangerDropped | dropOverflowed | dropped =>
      exact hinert (.inl (by simp)) (.advanceGapVersion rfl) rfl rfl rfl
    | acknowledgeOverflowed =>
      exact hinert (.inr (by simp)) (.advanceGapVersion rfl) rfl rfl rfl
    | @acknowledged sequence n _ _ hd ht hf ha =>
      obtain ⟨rfl, rfl, hdn, hnT, hsub, hstop⟩ := hs.advanced ha
      have hle : ∀ s ∈ insert sequence c.pre.durableOutOfOrder, s ≤ c.pre.state.transportSequence :=
        fun s hm => (Finset.mem_insert.1 hm).elim (fun he => he ▸ ht) (h.le_transport s)
      refine ⟨fun s hm => hle s (Finset.mem_sdiff.1 hm).1, fun hm => ?_, fun s hack => ?_⟩
      · have hin := (Finset.mem_sdiff.1 hm).1
        have hmax := hle _ hin
        rcases hstop with hstop | hstop
        · simp only [Bool.false_eq_true, if_false] at hmax
          omega
        · exact hstop hin
      · by_cases hsn : s ≤ n
        · exact .inl hsn
        · have hm : s ∈ insert sequence c.pre.durableOutOfOrder := by
            rcases acknowledged_snoc.1 hack with hack | ⟨hi, -⟩
            · rcases h.kept s hack with hle | hm
              · have hle : s ≤ c.pre.state.durableSequence := hle
                omega
              · exact Finset.mem_insert_of_mem hm
            · rw [hop] at hi
              cases hi
              exact Finset.mem_insert_self _ _
          exact .inr (Finset.mem_sdiff.2 ⟨hm, by rw [Finset.mem_Ioc]; omega⟩)
    | @installed f he =>
      obtain ⟨hst, hou, hdr⟩ := he
      have hspec := catchUpFrontier_spec _ f.evidence.frontier
      rw [← hst, ← hou, ← hdr] at hspec
      have hnext : f.nextState.durableSequence = c.pre.state.transportSequence := by
        rw [f.evidence.next_eq, ← hst]; rfl
      have htransport : f.nextState.transportSequence = c.pre.state.transportSequence := by
        rw [f.evidence.next_eq, ← hst]; rfl
      have hle : ∀ s ∈ f.nextDurableOutOfOrder, s ≤ c.pre.state.transportSequence :=
        fun s hm => h.le_transport s (hspec.2.2.1 hm)
      refine ⟨fun s hm => (hle s hm).trans htransport.ge, fun hm => ?_, fun s hack => .inl ?_⟩
      · have := hle _ hm
        dsimp only at this
        omega
      · rw [show _ = c.pre.state.transportSequence from hnext]
        rcases acknowledged_snoc.1 hack with hack | ⟨hi, -⟩
        · rcases h.kept s hack with hle | hm
          · exact hle.trans hs.durable_le
          · exact h.le_transport s hm
        · rw [hop] at hi
          cases hi

theorem CellRun.backlogged {credentialIdentity : AuthenticatedCredentialIdentity}
    {cs : List CellCall} {cell : StateCell} (h : CellRun credentialIdentity cs cell) :
    Backlogged cs cell.books := by
  induction h with
  | nil =>
    exact ⟨fun s hm => absurd hm (Finset.notMem_empty s), Finset.notMem_empty _,
      fun s ⟨c, hc, _⟩ => absurd hc List.not_mem_nil⟩
  | @snoc cs s op h _ ih => exact Backlogged.call (c := ⟨s, op⟩) (CellRun.sound h) ih

/-! ## Acknowledgements one after another -/

/-- The sequences are acknowledged in the order of the list. -/
def acks (cell : StateCell) (sequences : List ℕ) : StateCell :=
  cellMachine.exec cell (sequences.map .acknowledgeDurable)

/-- Each of the acknowledgements finds room in the backlog. -/
def InRoom : StateCell → List ℕ → Prop
  | _, [] => True
  | cell, s :: l =>
    cell.durableOutOfOrder.card < maxDurableOutOfOrder ∧
      InRoom (cellMachine.step cell (.acknowledgeDurable s)).1 l

/-- A reserved sequence that was neither acknowledged nor retired. -/
def Outstanding (cell : StateCell) (s : ℕ) : Prop :=
  cell.state.durableSequence < s ∧ s ≤ cell.state.transportSequence ∧ s ∉ cell.durableOutOfOrder

theorem acks_cons (cell : StateCell) (s : ℕ) (l : List ℕ) :
    acks cell (s :: l) = acks (cellMachine.step cell (.acknowledgeDurable s)).1 l := rfl

/-- A cell that was drained to a frontier of what it acknowledged goes on to the next one. -/
theorem drained_step {cell : StateCell} (ho : cell.isOpen) (hp : cell.durablePoisoned = false)
    (hT : cell.state.transportSequence ≤ u64Max) {acked : Finset ℕ} {n s : ℕ}
    (hn : IsFrontier cell.state.durableSequence cell.state.transportSequence acked n)
    (hs : Outstanding cell s) (hm : s ∉ acked)
    (hroom : (acked \ Finset.Ioc cell.state.durableSequence n).card < maxDurableOutOfOrder) :
    ∃ m, (cellMachine.step (cell.drainedTo n (acked \ Finset.Ioc cell.state.durableSequence n))
        (.acknowledgeDurable s)).1 =
      cell.drainedTo m (insert s acked \ Finset.Ioc cell.state.durableSequence m) ∧
      IsFrontier cell.state.durableSequence cell.state.transportSequence (insert s acked) m := by
  have hns : n < s := by
    by_contra hle
    exact hm (hn.reached (Finset.mem_Ioc.2 ⟨hs.1, not_lt.1 hle⟩))
  let drained := cell.drainedTo n (acked \ Finset.Ioc cell.state.durableSequence n)
  have hT' : drained.state.transportSequence ≤ u64Max := hT
  obtain ⟨m, hstep, hm'⟩ :=
    drained.acknowledgeDurable_of_room ho hp hT' hn.le_transport hns hs.2.1 hroom
  refine ⟨m, ?_, hn.trans hm'⟩
  rw [hstep]
  show cell.drainedTo m (insert s (acked \ Finset.Ioc cell.state.durableSequence n) \
    Finset.Ioc n m) = _
  rw [hn.sdiff_insert hm'.durable_le hns]

/-- While there is room, acknowledgements end at the frontier of all of them. -/
theorem drained_in_room {cell : StateCell} (ho : cell.isOpen) (hp : cell.durablePoisoned = false)
    (hT : cell.state.transportSequence ≤ u64Max) {l : List ℕ} :
    ∀ {acked : Finset ℕ} {n : ℕ},
      IsFrontier cell.state.durableSequence cell.state.transportSequence acked n →
      (∀ s ∈ l, Outstanding cell s ∧ s ∉ acked) → l.Nodup →
      InRoom (cell.drainedTo n (acked \ Finset.Ioc cell.state.durableSequence n)) l →
      ∃ m, acks (cell.drainedTo n (acked \ Finset.Ioc cell.state.durableSequence n)) l =
          cell.drainedTo m ((acked ∪ l.toFinset) \ Finset.Ioc cell.state.durableSequence m) ∧
        IsFrontier cell.state.durableSequence cell.state.transportSequence
          (acked ∪ l.toFinset) m := by
  induction l with
  | nil =>
    intro acked n hn _ _ _
    exact ⟨n, by simp [acks, Machine.exec], by simpa using hn⟩
  | cons s l ih =>
    rintro acked n hn hs hnd ⟨hroom, hrest⟩
    rw [List.nodup_cons] at hnd
    obtain ⟨m, hstep, hm⟩ := drained_step ho hp hT hn (hs s List.mem_cons_self).1
      (hs s List.mem_cons_self).2 hroom
    rw [hstep] at hrest
    have hs' : ∀ a ∈ l, Outstanding cell a ∧ a ∉ insert s acked := by
      intro a ha
      obtain ⟨hout, hnot⟩ := hs a (List.mem_cons_of_mem s ha)
      refine ⟨hout, fun hin => ?_⟩
      rcases Finset.mem_insert.1 hin with rfl | hin
      · exact hnd.1 ha
      · exact hnot hin
    obtain ⟨k, hk, hfrontier⟩ := ih hm hs' hnd.2 hrest
    have hunion : acked ∪ (s :: l).toFinset = insert s acked ∪ l.toFinset := by
      rw [List.toFinset_cons, Finset.union_insert, Finset.insert_union]
    rw [hunion, acks_cons, hstep]
    exact ⟨k, hk, hfrontier⟩

/-- A cell that takes acknowledgements. -/
structure Acknowledgeable (cell : StateCell) : Prop where
  isOpen : cell.isOpen
  durablePoisoned : cell.durablePoisoned = false
  transport_le : cell.state.transportSequence ≤ u64Max
  durable_le : cell.state.durableSequence ≤ cell.state.transportSequence

/-- A step with room: the cell still takes acknowledgements, and the rest is still outstanding. -/
theorem Acknowledgeable.step {cell : StateCell} (h : Acknowledgeable cell) {s : ℕ} {l : List ℕ}
    (hs : ∀ a ∈ s :: l, Outstanding cell a) (hnd : (s :: l).Nodup)
    (hroom : cell.durableOutOfOrder.card < maxDurableOutOfOrder) :
    ∃ n, (cellMachine.step cell (.acknowledgeDurable s)).1 =
        cell.drainedTo n (insert s cell.durableOutOfOrder \
          Finset.Ioc cell.state.durableSequence n) ∧
      IsFrontier cell.state.durableSequence cell.state.transportSequence
        (insert s cell.durableOutOfOrder) n ∧
      Acknowledgeable (cellMachine.step cell (.acknowledgeDurable s)).1 ∧
      ∀ a ∈ l, Outstanding (cellMachine.step cell (.acknowledgeDurable s)).1 a := by
  rw [List.nodup_cons] at hnd
  obtain ⟨hlt, hle, hm⟩ := hs s List.mem_cons_self
  obtain ⟨n, hstep, hn⟩ := StateCell.acknowledgeDurable_of_room h.isOpen h.durablePoisoned
    h.transport_le h.durable_le hlt hle hroom
  rw [hstep]
  refine ⟨n, rfl, hn, ⟨h.isOpen, h.durablePoisoned, h.transport_le, hn.le_transport⟩, ?_⟩
  intro a ha
  obtain ⟨hlt', hle', hm'⟩ := hs a (List.mem_cons_of_mem s ha)
  have hnot : a ∉ insert s cell.durableOutOfOrder := by
    intro hin
    rcases Finset.mem_insert.1 hin with rfl | hin
    · exact hnd.1 ha
    · exact hm' hin
  refine ⟨?_, hle', fun hin => hnot (Finset.mem_sdiff.1 hin).1⟩
  by_contra hge
  exact hnot (hn.reached (Finset.mem_Ioc.2 ⟨hlt', not_lt.1 hge⟩))

/-- In any order with room, acknowledgements end at the frontier of the backlog and all of them. -/
theorem acks_in_room {cell : StateCell} (h : Acknowledgeable cell) {l : List ℕ} (hl : l ≠ [])
    (hs : ∀ s ∈ l, Outstanding cell s) (hnd : l.Nodup) (hroom : InRoom cell l) :
    ∃ n, acks cell l = cell.drainedTo n
        ((cell.durableOutOfOrder ∪ l.toFinset) \ Finset.Ioc cell.state.durableSequence n) ∧
      IsFrontier cell.state.durableSequence cell.state.transportSequence
        (cell.durableOutOfOrder ∪ l.toFinset) n := by
  cases l with
  | nil => exact absurd rfl hl
  | cons s l =>
    obtain ⟨n, hstep, hn, -, -⟩ := h.step hs hnd hroom.1
    have hrest := hroom.2
    rw [hstep] at hrest
    have hunion : cell.durableOutOfOrder ∪ (s :: l).toFinset =
        insert s cell.durableOutOfOrder ∪ l.toFinset := by
      rw [List.toFinset_cons, Finset.union_insert, Finset.insert_union]
    rw [hunion, acks_cons, hstep]
    refine drained_in_room h.isOpen h.durablePoisoned h.transport_le hn ?_ hnd.of_cons hrest
    intro a ha
    refine ⟨hs a (List.mem_cons_of_mem s ha), fun hin => ?_⟩
    rcases Finset.mem_insert.1 hin with rfl | hin
    · exact (List.nodup_cons.1 hnd).1 ha
    · exact (hs a (List.mem_cons_of_mem s ha)).2.2 hin

/-- Two orders with room end in the same cell. -/
theorem acks_perm {cell : StateCell} (h : Acknowledgeable cell) {l l' : List ℕ} (hp : l.Perm l')
    (hs : ∀ s ∈ l, Outstanding cell s) (hnd : l.Nodup) (hroom : InRoom cell l)
    (hroom' : InRoom cell l') : acks cell l' = acks cell l := by
  by_cases hl : l = []
  · subst hl
    rw [hp.nil_eq]
  · have hl' : l' ≠ [] := fun he => hl (by rw [he] at hp; exact hp.eq_nil)
    have hs' : ∀ s ∈ l', Outstanding cell s := fun s hm => hs s (hp.mem_iff.2 hm)
    obtain ⟨n, hn, hfrontier⟩ := acks_in_room h hl hs hnd hroom
    obtain ⟨m, hm, hfrontier'⟩ := acks_in_room h hl' hs' (hp.nodup_iff.1 hnd) hroom'
    have hset : l'.toFinset = l.toFinset := (List.toFinset_eq_of_perm _ _ hp).symm
    rw [hset] at hm hfrontier'
    rw [hm, hn, hfrontier.unique hfrontier']

/-- An order that finds no room leaves a gap behind. -/
theorem acks_without_room {l : List ℕ} :
    ∀ {cell : StateCell}, Acknowledgeable cell → (∀ s ∈ l, Outstanding cell s) → l.Nodup →
      ¬ InRoom cell l → cell.state.gapVersion < (acks cell l).state.gapVersion ∨
        (acks cell l).state.counterExhaustion.isSome := by
  induction l with
  | nil => exact fun _ _ _ hroom => absurd trivial hroom
  | cons s l ih =>
    intro cell h hs hnd hroom
    obtain ⟨hlt, hle, hm⟩ := hs s List.mem_cons_self
    by_cases hfree : cell.durableOutOfOrder.card < maxDurableOutOfOrder
    · obtain ⟨n, hstep, -, hnext, hrest⟩ := h.step hs hnd hfree
      have hgap := ih hnext hrest hnd.of_cons fun hr => hroom ⟨hfree, hr⟩
      rw [acks_cons]
      rwa [show (cellMachine.step cell (.acknowledgeDurable s)).1.state.gapVersion =
        cell.state.gapVersion by rw [hstep]; rfl] at hgap
    · have hclosed := (StateCell.acknowledgeDurable_of_full h.isOpen h.durablePoisoned hlt hle
        (not_lt.1 hfree) hm).2
      -- the refusal left a gap, and what a state counts only rises
      have hgrows : Grows (cellMachine.step cell (.acknowledgeDurable s)).1.state
          (acks cell (s :: l)).state :=
        grows_of_path (Machine.path_exec cellMachine _ (l.map .acknowledgeDurable))
      rcases AuthenticatedUserWsState.advanceGapVersion_cases
          { cell.state with consumerClosed := true, deliveryGap := true } with ⟨-, he⟩ | ⟨-, he⟩
      · left
        rw [he] at hclosed
        have := hgrows.gapVersion
        rw [hclosed] at this
        exact this
      · right
        rw [he] at hclosed
        have hexhausted :
            (cellMachine.step cell (.acknowledgeDurable s)).1.state.counterExhaustion.isSome := by
          rw [hclosed]
          unfold AuthenticatedUserWsState.failCounter
          dsimp only
          split_ifs with hnone
          · rfl
          · simpa [Option.isSome_iff_ne_none] using hnone
        obtain ⟨e, hx⟩ := Option.isSome_iff_exists.1 hexhausted
        rw [hgrows.counterExhaustion hx]
        rfl

/-! ## Acknowledging the head -/

/-- A call of `acknowledge_durable` that returns `true`, sets no flag, and moves the durable
    sequence over all that has been acknowledged without a gap. -/
structure CellCall.Drains (cs : List CellCall) (c : CellCall) : Prop where
  returned : c.out = .bool true
  state : c.post.state = { c.pre.state with durableSequence := c.post.state.durableSequence }
  greatest : IsGreatest
    {n | ∀ s, c.pre.state.durableSequence < s → s ≤ n → Acknowledged (cs ++ [c]) s}
    c.post.state.durableSequence

/-- The acknowledgement of the missing head. -/
def headCall (cell : StateCell) : CellCall :=
  ⟨cell, .acknowledgeDurable (cell.state.durableSequence + 1)⟩

section
variable {credentialIdentity : AuthenticatedCredentialIdentity} {cs : List CellCall}
  {cell : StateCell}

theorem CellRun.acknowledgeable (h : CellRun credentialIdentity cs cell) (ho : cell.isOpen)
    (hp : cell.durablePoisoned = false) : Acknowledgeable cell :=
  ⟨ho, hp, (CellRun.sound h).transport_le, (CellRun.sound h).durable_le⟩

/-- With room in the backlog, the head drains it. -/
theorem drains_of_room (h : CellRun credentialIdentity cs cell) (ho : cell.isOpen)
    (hp : cell.durablePoisoned = false)
    (hlt : cell.state.durableSequence < cell.state.transportSequence)
    (hroom : cell.durableOutOfOrder.card < maxDurableOutOfOrder) :
    CellCall.Drains cs (headCall cell) := by
  have ha := CellRun.acknowledgeable h ho hp
  obtain ⟨n, hstep, hn⟩ := StateCell.acknowledgeDurable_of_room ho hp ha.transport_le
    ha.durable_le (Nat.lt_succ_self _) hlt hroom
  have hout : (headCall cell).out = .bool true := congrArg Prod.snd hstep
  have hpost : (headCall cell).post = cell.drainedTo n _ := congrArg Prod.fst hstep
  have hdurable : (headCall cell).post.state.durableSequence = n := by rw [hpost]; rfl
  refine ⟨hout, ?_, ?_, ?_⟩
  · rw [hdurable, hpost]
    rfl
  · intro s hs hle
    rw [hdurable] at hle
    rcases Finset.mem_insert.1 (hn.reached (Finset.mem_Ioc.2 ⟨hs, hle⟩)) with rfl | hin
    · exact acknowledged_snoc.2 (.inr ⟨rfl, hout⟩)
    · exact acknowledged_snoc.2 (.inl ((CellRun.accounted h).outOfOrder s hin))
  · intro m hm
    by_contra hgt
    have hrun := h.snoc (i := .acknowledgeDurable (cell.state.durableSequence + 1))
      (by exact trivial)
    have hb := CellRun.backlogged hrun
    have hnext := hm (n + 1) (by have := hn.durable_le; exact Nat.lt_succ_of_le this) (by omega)
    rcases hb.kept _ hnext with hle | hin
    · have hle : n + 1 ≤ (headCall cell).post.state.durableSequence := hle
      omega
    · have hhead := hb.head
      have hd : (headCall cell).post.books.state.durableSequence = n := hdurable
      rw [show (cellMachine.step cell (.acknowledgeDurable (cell.state.durableSequence + 1))).1 =
        (headCall cell).post from rfl, hd] at hhead
      exact hhead hin

/-- At a full backlog the head closes the consumer. -/
theorem refused_of_full (h : CellRun credentialIdentity cs cell) (ho : cell.isOpen)
    (hp : cell.durablePoisoned = false)
    (hlt : cell.state.durableSequence < cell.state.transportSequence)
    (hfull : maxDurableOutOfOrder ≤ cell.durableOutOfOrder.card) :
    (headCall cell).out = .bool false ∧ (headCall cell).post.state.consumerClosed = true := by
  obtain ⟨hout, hpost⟩ := StateCell.acknowledgeDurable_of_full ho hp (Nat.lt_succ_self _) hlt
    hfull (CellRun.backlogged h).head
  refine ⟨hout, ?_⟩
  rw [show (headCall cell).post.state = _ from hpost]
  rcases AuthenticatedUserWsState.advanceGapVersion_cases
    { cell.state with consumerClosed := true, deliveryGap := true } with ⟨-, he⟩ | ⟨-, he⟩
  · rw [he]
  · rw [he]
    rfl

/-- The head drains the backlog exactly when the backlog has room; and another order of
    acknowledgements ends as one with room exactly when it has room too. -/
theorem acknowledge_complete_iff (h : CellRun credentialIdentity cs cell) (ho : cell.isOpen)
    (hp : cell.durablePoisoned = false) (hx : cell.state.counterExhaustion = none)
    (hlt : cell.state.durableSequence < cell.state.transportSequence) :
    (CellCall.Drains cs (headCall cell) ↔ cell.durableOutOfOrder.card < maxDurableOutOfOrder) ∧
    ∀ l l' : List ℕ, l.Perm l' → l.Nodup → (∀ s ∈ l, Outstanding cell s) → InRoom cell l →
      ((acks cell l').books = (acks cell l).books ↔ InRoom cell l') := by
  have ha := CellRun.acknowledgeable h ho hp
  refine ⟨⟨fun hd => ?_, drains_of_room h ho hp hlt⟩, fun l l' hperm hnd hs hroom => ⟨?_, ?_⟩⟩
  · by_contra hfull
    have hreturned := hd.returned
    rw [(refused_of_full h ho hp hlt (not_lt.1 hfull)).1] at hreturned
    cases hreturned
  · intro heq
    by_contra hroom'
    have hgap := acks_without_room ha (fun s hm => hs s (hperm.mem_iff.2 hm))
      (hperm.nodup_iff.1 hnd) hroom'
    have hstate : (acks cell l').state = (acks cell l).state := congrArg Books.state heq
    have hkept : (acks cell l).state.gapVersion = cell.state.gapVersion ∧
        (acks cell l).state.counterExhaustion = cell.state.counterExhaustion := by
      by_cases hl : l = []
      · subst hl
        exact ⟨rfl, rfl⟩
      · obtain ⟨n, hn, -⟩ := acks_in_room ha hl hs hnd hroom
        rw [hn]
        exact ⟨rfl, rfl⟩
    rw [hstate, hkept.1, hkept.2, hx] at hgap
    simp at hgap
  · intro hroom'
    rw [acks_perm ha hperm hs hnd hroom hroom']

end

/-! ## A full backlog -/

/-- A new channel that reserved `n + 1` sequences. -/
def reservedCell (n : ℕ) : StateCell :=
  cellMachine.exec (.newWithIdentity {}) [.reserveTransportSequences (n + 1)]

theorem reservedCell_eq {n : ℕ} (hn : n < u64Max) :
    reservedCell n = { StateCell.newWithIdentity {} with
      state := { transportSequence := n + 1 }
      stateTx := { transportSequence := n + 1 } } := by
  have h1 : checkedAdd 0 1 = some 1 := by decide
  have h2 : checkedAdd 1 n = some (n + 1) := checkedAdd_eq_some.2 ⟨by omega, by omega⟩
  simp [reservedCell, Machine.exec, cellMachine, StateCell.perform,
    StateCell.reserveTransportSequences, AuthenticatedUserWsState.reserveTransportSequences,
    StateCell.update, StateCell.lock, StateCell.newWithIdentity, Locked.map, Locked.settle, h1, h2]

/-- Few acknowledgements find room. -/
theorem inRoom_of_length {l : List ℕ} :
    ∀ {cell : StateCell}, Acknowledgeable cell → (∀ s ∈ l, Outstanding cell s) → l.Nodup →
      cell.durableOutOfOrder.card + l.length ≤ maxDurableOutOfOrder → InRoom cell l := by
  induction l with
  | nil => exact fun _ _ _ _ => trivial
  | cons s l ih =>
    intro cell h hs hnd hlen
    rw [List.length_cons] at hlen
    have hroom : cell.durableOutOfOrder.card < maxDurableOutOfOrder := by omega
    obtain ⟨n, hstep, -, hnext, hrest⟩ := h.step hs hnd hroom
    refine ⟨hroom, ih hnext hrest hnd.of_cons ?_⟩
    have hcard : (insert s cell.durableOutOfOrder \
        Finset.Ioc cell.state.durableSequence n).card ≤ cell.durableOutOfOrder.card + 1 :=
      (Finset.card_le_card Finset.sdiff_subset).trans (Finset.card_insert_le _ _)
    rw [hstep]
    show (insert s cell.durableOutOfOrder \ Finset.Ioc cell.state.durableSequence n).card + _ ≤ _
    omega

/-- All of them acknowledged but the first. -/
def backlogCell (n : ℕ) : StateCell := acks (reservedCell n) (List.range' 2 n)

/-- The backlog holds `n` sequences, and the head is missing. -/
theorem backlogCell_run {n : ℕ} (h₀ : 1 ≤ n) (hn : n ≤ maxDurableOutOfOrder) :
    ∃ cs, CellRun {} cs (backlogCell n) ∧ (backlogCell n).isOpen ∧
      (backlogCell n).durablePoisoned = false ∧
      (backlogCell n).state = { transportSequence := n + 1 } ∧
      (backlogCell n).durableOutOfOrder.card = n := by
  have hmax : maxDurableOutOfOrder < u64Max := by decide
  have hcell := reservedCell_eq (hn.trans_lt hmax)
  have hadmits : Machine.Admits cellMachine Op.available [] (.newWithIdentity {})
      [.reserveTransportSequences (n + 1)] := ⟨trivial, trivial⟩
  have hrun : CellRun {} _ (reservedCell n) := .of_inputs hadmits
  have hfree : ∀ op ∈ (List.range' 2 n).map Op.acknowledgeDurable, ∀ cs, op.available cs := by
    intro op hm cs
    obtain ⟨s, -, rfl⟩ := List.mem_map.1 hm
    trivial
  have hrun' := hrun.extend _ (.of_forall hfree _ _)
  have ha : Acknowledgeable (reservedCell n) :=
    CellRun.acknowledgeable hrun (by rw [hcell]; exact ⟨rfl, rfl⟩) (by rw [hcell]; rfl)
  have hs : ∀ s ∈ List.range' 2 n, Outstanding (reservedCell n) s := by
    intro s hm
    rw [List.mem_range'_1] at hm
    rw [hcell]
    exact ⟨by show 0 < s; omega, by show s ≤ n + 1; omega, Finset.notMem_empty s⟩
  have hnd : (List.range' 2 n).Nodup := List.nodup_range'
  have hne : List.range' 2 n ≠ [] := by simp; omega
  have hempty : (reservedCell n).durableOutOfOrder = ∅ := by rw [hcell]; rfl
  have hroom : InRoom (reservedCell n) (List.range' 2 n) := by
    refine inRoom_of_length ha hs hnd ?_
    rw [hempty, List.length_range', Finset.card_empty, zero_add]
    exact hn
  obtain ⟨m, hacks, hm⟩ := acks_in_room ha hne hs hnd hroom
  rw [hempty, Finset.empty_union, hcell] at hm
  rw [hempty, Finset.empty_union] at hacks
  -- the head was not acknowledged, so the frontier did not move
  have hhead : 0 + 1 ∉ (List.range' 2 n).toFinset := by simp
  obtain rfl : m = 0 := hm.unique (IsFrontier.refl (Nat.zero_le _) hhead)
  refine ⟨_, hrun', ?_⟩
  rw [backlogCell, hacks, hcell]
  refine ⟨⟨rfl, rfl⟩, rfl, rfl, ?_⟩
  show ((List.range' 2 n).toFinset \ Finset.Ioc 0 0).card = n
  rw [Finset.Ioc_self, Finset.sdiff_empty, List.toFinset_card_of_nodup hnd, List.length_range']

/-- Two sequences: the head arrives second, and drains both. -/
theorem acknowledge_complete_iff_pair : ∃ cs, CellRun {} cs (backlogCell 1) ∧
    CellCall.Drains cs (headCall (backlogCell 1)) := by
  obtain ⟨cs, hrun, ho, hp, hstate, hcard⟩ := backlogCell_run le_rfl (by decide)
  refine ⟨cs, hrun, ?_⟩
  refine (acknowledge_complete_iff hrun ho hp (by rw [hstate]) (by rw [hstate]; decide)).1.2 ?_
  rw [hcard]
  decide

/-- The head arrives last, at a full backlog. -/
theorem acknowledge_complete_not : ∃ (cs : List CellCall) (cell : StateCell),
    CellRun {} cs cell ∧ cell.isOpen ∧ cell.durablePoisoned = false ∧
    cell.state.counterExhaustion = none ∧
    cell.state.durableSequence < cell.state.transportSequence ∧
    (headCall cell).out = .bool false ∧ (headCall cell).post.state.consumerClosed = true ∧
    ¬ CellCall.Drains cs (headCall cell) := by
  obtain ⟨cs, hrun, ho, hp, hstate, hcard⟩ :=
    backlogCell_run (n := maxDurableOutOfOrder) (by decide) le_rfl
  have hlt : (backlogCell maxDurableOutOfOrder).state.durableSequence <
      (backlogCell maxDurableOutOfOrder).state.transportSequence := by
    rw [hstate]
    show 0 < maxDurableOutOfOrder + 1
    omega
  obtain ⟨hout, hclosed⟩ := refused_of_full hrun ho hp hlt hcard.ge
  refine ⟨cs, _, hrun, ho, hp, by rw [hstate], hlt, hout, hclosed, fun h => ?_⟩
  have hreturned := h.returned
  rw [hout] at hreturned
  cases hreturned

end Rspm
