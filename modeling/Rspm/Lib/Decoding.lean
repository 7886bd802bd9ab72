/-
  Lists that are decoded as a whole.

  `l.mapM f` accepts a list if and only if it accepts each of its members
  (`mapM_accepts`); it refuses with the error of the first member that is
  refused (`mapM_eq_error`).
-/
import Mathlib

namespace Decoding

variable {ε α β γ : Type} {f : α → Except ε β}

theorem mapM_eq_ok {l : List α} {bs : List β} :
    l.mapM f = .ok bs ↔ List.Forall₂ (fun a b => f a = .ok b) l bs := by
  induction l generalizing bs with
  | nil =>
    simp only [List.mapM_nil, List.forall₂_nil_left_iff]
    exact ⟨fun h => (Except.ok.inj h).symm, fun h => congrArg Except.ok h.symm⟩
  | cons a l ih =>
    rw [List.mapM_cons]
    constructor
    · intro h
      cases ha : f a with
      | error error =>
        rw [ha] at h
        cases h
      | ok b =>
        cases hl : l.mapM f with
        | error error =>
          rw [ha, hl] at h
          cases h
        | ok bs' =>
          rw [ha, hl] at h
          cases h
          exact .cons ha (ih.1 hl)
    · intro h
      cases h with
      | cons ha hl =>
        rw [ha, ih.2 hl]
        rfl

/-- A list is accepted if and only if its members are. -/
theorem mapM_accepts {l : List α} :
    (∃ bs, l.mapM f = .ok bs) ↔ ∀ a ∈ l, ∃ b, f a = .ok b := by
  constructor
  · rintro ⟨bs, h⟩
    have hl := mapM_eq_ok.1 h
    clear h
    induction hl with
    | nil => simp
    | cons ha _ ih => exact List.forall_mem_cons.2 ⟨⟨_, ha⟩, ih⟩
  · intro h
    induction l with
    | nil => exact ⟨[], rfl⟩
    | cons a l ih =>
      obtain ⟨b, hb⟩ := h a (List.mem_cons_self ..)
      obtain ⟨bs, hbs⟩ := ih fun a' ha' => h a' (List.mem_cons_of_mem a ha')
      exact ⟨b :: bs, mapM_eq_ok.2 (.cons hb (mapM_eq_ok.1 hbs))⟩

theorem mapM_mem {l : List α} {bs : List β} (h : l.mapM f = .ok bs) {a : α} (ha : a ∈ l) :
    ∃ b ∈ bs, f a = .ok b := by
  have hl := mapM_eq_ok.1 h
  clear h
  induction hl with
  | nil => cases ha
  | cons hb _ ih =>
    rcases List.mem_cons.1 ha with rfl | ha
    · exact ⟨_, List.mem_cons_self, hb⟩
    · obtain ⟨b, hmem, hb⟩ := ih ha
      exact ⟨b, List.mem_cons_of_mem _ hmem, hb⟩

/-- What each member keeps, the list keeps in its order. -/
theorem mapM_map {l : List α} {bs : List β} {g : β → γ} {h : α → γ}
    (hf : ∀ a b, f a = .ok b → g b = h a) (hl : l.mapM f = .ok bs) : bs.map g = l.map h := by
  have hl := mapM_eq_ok.1 hl
  clear * - hf hl
  induction hl with
  | nil => rfl
  | cons ha _ ih => simp [hf _ _ ha, ih]

/-- The error of a list is that of the first member that is refused. -/
theorem mapM_eq_error {l : List α} {e : ε} :
    l.mapM f = .error e ↔
      ∃ l₁ a l₂, l = l₁ ++ a :: l₂ ∧ (∀ b ∈ l₁, ∃ c, f b = .ok c) ∧ f a = .error e := by
  induction l with
  | nil =>
    constructor
    · intro h
      cases h
    · rintro ⟨l₁, a, l₂, h, -⟩
      simp at h
  | cons a l ih =>
    rw [List.mapM_cons]
    cases ha : f a with
    | error e' =>
      constructor
      · intro h
        cases h
        exact ⟨[], a, l, rfl, by simp, ha⟩
      · rintro ⟨l₁, a', l₂, h, hok, he⟩
        rcases l₁ with - | ⟨b, l₁⟩
        · obtain ⟨rfl, -⟩ := List.cons.inj h
          rw [ha] at he
          cases he
          rfl
        · obtain ⟨rfl, -⟩ := List.cons.inj h
          obtain ⟨c, hc⟩ := hok a List.mem_cons_self
          rw [ha] at hc
          cases hc
    | ok b =>
      have hstep : (Except.ok b >>= fun b => l.mapM f >>= fun bs => pure (b :: bs)) =
          (Except.error e : Except ε (List β)) ↔ l.mapM f = .error e := by
        cases l.mapM f with
        | error e' =>
          constructor
          · intro h
            cases h
            rfl
          · intro h
            cases h
            rfl
        | ok bs =>
          constructor <;> intro h <;> cases h
      rw [hstep, ih]
      constructor
      · rintro ⟨l₁, a', l₂, rfl, hok, he⟩
        exact ⟨a :: l₁, a', l₂, rfl, List.forall_mem_cons.2 ⟨⟨b, ha⟩, hok⟩, he⟩
      · rintro ⟨l₁, a', l₂, h, hok, he⟩
        rcases l₁ with - | ⟨b', l₁⟩
        · obtain ⟨rfl, -⟩ := List.cons.inj h
          rw [ha] at he
          cases he
        · obtain ⟨rfl, rfl⟩ := List.cons.inj h
          exact ⟨l₁, a', l₂, rfl, (List.forall_mem_cons.1 hok).2, he⟩

/-- With the indexes from `k` on: the first member that is refused, and its index. -/
theorem mapM_zipIdx_eq_error {f : α × ℕ → Except ε β} {P : α → Prop}
    (hf : ∀ a i, (∃ b, f (a, i) = .ok b) ↔ P a) {l : List α} {e : ε} :
    ∀ k, (l.zipIdx k).mapM f = .error e ↔
      ∃ l₁ a l₂, l = l₁ ++ a :: l₂ ∧ (∀ b ∈ l₁, P b) ∧ f (a, k + l₁.length) = .error e := by
  induction l with
  | nil =>
    intro k
    constructor
    · intro h
      cases h
    · rintro ⟨l₁, a, l₂, h, -⟩
      simp at h
  | cons a l ih =>
    intro k
    rw [List.zipIdx_cons, mapM_eq_error]
    constructor
    · rintro ⟨L₁, p, L₂, h, hok, he⟩
      rcases L₁ with - | ⟨q, L₁⟩
      · obtain ⟨rfl, -⟩ := List.cons.inj h
        exact ⟨[], a, l, rfl, by simp, he⟩
      · obtain ⟨rfl, htail⟩ := List.cons.inj h
        rw [List.forall_mem_cons] at hok
        obtain ⟨l₁, a', l₂, rfl, hP, he'⟩ :=
          (ih (k + 1)).1 (mapM_eq_error.2 ⟨L₁, p, L₂, htail, hok.2, he⟩)
        refine ⟨a :: l₁, a', l₂, rfl, List.forall_mem_cons.2 ⟨(hf a k).1 hok.1, hP⟩, ?_⟩
        rwa [List.length_cons, show k + (l₁.length + 1) = k + 1 + l₁.length by omega]
    · rintro ⟨l₁, a', l₂, h, hP, he⟩
      rcases l₁ with - | ⟨b, l₁⟩
      · obtain ⟨rfl, -⟩ := List.cons.inj h
        exact ⟨[], (a, k), l.zipIdx (k + 1), rfl, by simp, he⟩
      · obtain ⟨rfl, rfl⟩ := List.cons.inj h
        rw [List.forall_mem_cons] at hP
        rw [List.length_cons, show k + (l₁.length + 1) = k + 1 + l₁.length by omega] at he
        obtain ⟨L₁, p, L₂, htail, hok, he'⟩ := mapM_eq_error.1
          ((ih (k + 1)).2 ⟨l₁, a', l₂, rfl, hP.2, he⟩)
        exact ⟨(a, k) :: L₁, p, L₂, by rw [htail]; rfl,
          List.forall_mem_cons.2 ⟨(hf a k).2 hP.1, hok⟩, he'⟩

/-- A list whose members are all read is read member by member. -/
theorem mapM_of_forall_some {f : α → Option β} {g : α → β} {l : List α}
    (h : ∀ a ∈ l, f a = some (g a)) : l.mapM f = some (l.map g) := by
  induction l with
  | nil => rfl
  | cons a l ih =>
    rw [List.mapM_cons, h a List.mem_cons_self, ih fun b hb => h b (List.mem_cons_of_mem a hb)]
    rfl

theorem length_of_mapM {f : α → Option β} {l : List α} :
    ∀ {bs : List β}, l.mapM f = some bs → bs.length = l.length := by
  induction l with
  | nil =>
    intro bs h
    obtain rfl := Option.some.inj h
    rfl
  | cons a l ih =>
    intro bs h
    rw [List.mapM_cons] at h
    obtain ⟨b, -, h⟩ := Option.bind_eq_some_iff.1 h
    obtain ⟨cs, hcs, h⟩ := Option.bind_eq_some_iff.1 h
    obtain rfl := Option.some.inj h
    rw [List.length_cons, List.length_cons, ih hcs]

/-- What is read of a list is read of its members. -/
theorem mem_of_mapM {f : α → Option β} {l : List α} :
    ∀ {bs : List β}, l.mapM f = some bs → ∀ b ∈ bs, ∃ a ∈ l, f a = some b := by
  induction l with
  | nil =>
    intro bs h b hb
    obtain rfl := Option.some.inj h
    cases hb
  | cons a l ih =>
    intro bs h b hb
    rw [List.mapM_cons] at h
    obtain ⟨b', hb', h⟩ := Option.bind_eq_some_iff.1 h
    obtain ⟨cs, hcs, h⟩ := Option.bind_eq_some_iff.1 h
    obtain rfl := Option.some.inj h
    rcases List.mem_cons.1 hb with rfl | hb
    · exact ⟨a, List.mem_cons_self, hb'⟩
    · obtain ⟨a', ha', hf⟩ := ih hcs b hb
      exact ⟨a', List.mem_cons_of_mem a ha', hf⟩

/-- A test that never fails on the members of a list does not fail on the list. -/
theorem allM_of_isSome {f : α → Option Bool} {l : List α} (h : ∀ a ∈ l, (f a).isSome) :
    (l.allM f).isSome ∧ (l.allM f = some true ↔ ∀ a ∈ l, f a = some true) := by
  induction l with
  | nil => exact ⟨rfl, fun _ => by simp, fun _ => rfl⟩
  | cons a l ih =>
    rw [List.forall_mem_cons] at h
    obtain ⟨hsome, hiff⟩ := ih h.2
    obtain ⟨b, hb⟩ := Option.isSome_iff_exists.1 h.1
    rw [List.allM_cons, hb, List.forall_mem_cons, hb]
    cases b with
    | false =>
      refine ⟨rfl, ?_, ?_⟩
      · intro h
        cases h
      · rintro ⟨h, -⟩
        cases h
    | true => exact ⟨hsome, hiff.trans ⟨fun h => ⟨rfl, h⟩, And.right⟩⟩

/-- A fold whose steps commute does not depend on the order of the list. -/
theorem foldlM_perm {f : γ → α → Option γ}
    (hcomm : ∀ c a b, (f c a).bind (f · b) = (f c b).bind (f · a)) {l l' : List α}
    (h : l.Perm l') : ∀ c, l.foldlM f c = l'.foldlM f c := by
  induction h with
  | nil =>
    intro c
    rfl
  | cons a _ ih =>
    intro c
    rw [List.foldlM_cons, List.foldlM_cons]
    exact congrArg (f c a).bind (funext ih)
  | swap a b l =>
    intro c
    simp only [List.foldlM_cons]
    change (f c b).bind (fun d => (f d a).bind fun d => l.foldlM f d) =
      (f c a).bind fun d => (f d b).bind fun d => l.foldlM f d
    rw [← Option.bind_assoc, ← Option.bind_assoc, hcomm]
  | trans _ _ ih ih' =>
    intro c
    exact (ih c).trans (ih' c)

end Decoding
