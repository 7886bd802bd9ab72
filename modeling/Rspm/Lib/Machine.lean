/-
  Deterministic machines and their runs.

  A machine takes a state and an input to the next state and an output.  A run
  is the list of its completed calls, oldest first; a call records the state it
  started in and its input, so that the state it left and what it returned are
  functions of it.  A guard `ok` restricts the inputs by the calls made so far
  (an input may name a value that an earlier call returned).

  * `Run.invariant`: what every step preserves holds in every state of a run;
  * `Run.before`, `Run.after`, `Run.between`, `Run.earlier`: a run cut at its calls;
  * `Path`: a segment of a run, with `Path.closed` (an absorbing predicate) and
    `Path.rel` (a preorder that every step respects).
-/
import Mathlib

universe u v w

/-- A deterministic machine. -/
structure Machine (σ : Type u) (ι : Type v) (ο : Type w) where
  step : σ → ι → σ × ο

namespace Machine

variable {σ : Type u} {ι : Type v} {ο : Type w}

/-- A completed call: the state it started in, and its input. -/
structure Call (M : Machine σ ι ο) where
  pre : σ
  input : ι

variable {M : Machine σ ι ο}

/-- The state a call leaves. -/
def Call.post (c : M.Call) : σ := (M.step c.pre c.input).1

/-- What a call returns. -/
def Call.out (c : M.Call) : ο := (M.step c.pre c.input).2

/-- The runs of `M` from `s₀` under the guard `ok`. -/
inductive Run (M : Machine σ ι ο) (ok : List M.Call → ι → Prop) (s₀ : σ) :
    List M.Call → σ → Prop
  | nil : Run M ok s₀ [] s₀
  | snoc {cs : List M.Call} {s : σ} {i : ι} :
      Run M ok s₀ cs s → ok cs i → Run M ok s₀ (cs ++ [⟨s, i⟩]) (M.step s i).1

/-- The calls `cs` lead from `s` to `s'`. -/
inductive Path (M : Machine σ ι ο) : σ → List M.Call → σ → Prop
  | nil (s : σ) : Path M s [] s
  | cons {s s' : σ} {i : ι} {cs : List M.Call} :
      Path M (M.step s i).1 cs s' → Path M s (⟨s, i⟩ :: cs) s'

/-- Cut a list at the last of its elements that satisfies `p`. -/
theorem exists_last {α : Type u} {p : α → Prop} [DecidablePred p] {l : List α}
    (h : ∃ a ∈ l, p a) : ∃ as a bs, l = as ++ a :: bs ∧ p a ∧ ∀ b ∈ bs, ¬ p b := by
  induction l with
  | nil => simp at h
  | cons a l ih =>
    by_cases hl : ∃ b ∈ l, p b
    · obtain ⟨as, b, bs, rfl, hb, hbs⟩ := ih hl
      exact ⟨a :: as, b, bs, rfl, hb, hbs⟩
    · have ha : p a := by
        obtain ⟨b, hb, hpb⟩ := h
        rcases List.mem_cons.1 hb with rfl | hb
        · exact hpb
        · exact absurd ⟨b, hb, hpb⟩ hl
      exact ⟨[], a, l, rfl, ha, fun b hb hpb => hl ⟨b, hb, hpb⟩⟩

/-- Where the last element of a cut list lies. -/
theorem split_concat {α : Type u} {l l₁ l₂ : List α} {a e : α} (h : l ++ [a] = l₁ ++ e :: l₂) :
    (l = l₁ ∧ a = e ∧ l₂ = []) ∨ ∃ l₃, l₂ = l₃ ++ [a] ∧ l = l₁ ++ e :: l₃ := by
  rcases List.eq_nil_or_concat l₂ with rfl | ⟨l₃, b, rfl⟩
  · obtain ⟨h₁, h₂⟩ := List.append_inj' h rfl
    exact .inl ⟨h₁, (List.cons.inj h₂).1, rfl⟩
  · rw [List.concat_eq_append, ← List.cons_append, ← List.append_assoc] at h
    rw [List.concat_eq_append]
    obtain ⟨h₁, h₂⟩ := List.append_inj' h rfl
    cases h₂
    exact .inr ⟨l₃, rfl, h₁⟩

/-! ## Paths -/

theorem Path.snoc {s s' : σ} {cs : List M.Call} (h : Path M s cs s') (i : ι) :
    Path M s (cs ++ [⟨s', i⟩]) (M.step s' i).1 := by
  induction h with
  | nil s => exact .cons (.nil _)
  | cons _ ih => exact .cons ih

theorem Path.append {s s' s'' : σ} {cs ds : List M.Call} (h : Path M s cs s')
    (h' : Path M s' ds s'') : Path M s (cs ++ ds) s'' := by
  induction h with
  | nil s => exact h'
  | cons _ ih => exact .cons (ih h')

theorem Path.split {s s' : σ} {ds : List M.Call} :
    ∀ {cs : List M.Call}, Path M s (cs ++ ds) s' → ∃ t, Path M s cs t ∧ Path M t ds s'
  | [], h => ⟨s, .nil s, h⟩
  | _ :: cs, .cons h => by
    obtain ⟨t, h1, h2⟩ := Path.split h
    exact ⟨t, .cons h1, h2⟩

theorem Path.head {s s' : σ} {c : M.Call} {cs : List M.Call} (h : Path M s (c :: cs) s') :
    c.pre = s ∧ Path M c.post cs s' := by
  cases h with
  | cons h => exact ⟨rfl, h⟩

/-- The calls determine where a path ends. -/
theorem Path.end_eq {s t t' : σ} {cs : List M.Call} (h : Path M s cs t) (h' : Path M s cs t') :
    t = t' := by
  induction h with
  | nil s => cases h'; rfl
  | cons _ ih => exact ih h'.head.2

/-- A preorder respected by every step relates the ends of a path. -/
theorem Path.rel {r : σ → σ → Prop} (hr : ∀ s, r s s) (ht : ∀ a b c, r a b → r b c → r a c)
    (hs : ∀ s i, r s (M.step s i).1) {s s' : σ} {cs : List M.Call} (h : Path M s cs s') :
    r s s' := by
  induction h with
  | nil s => exact hr s
  | cons _ ih => exact ht _ _ _ (hs _ _) ih

/-- A predicate kept by every step is kept along a path. -/
theorem Path.closed {P : σ → Prop} (hs : ∀ s i, P s → P (M.step s i).1) {s s' : σ}
    {cs : List M.Call} (h : Path M s cs s') : P s → P s' := by
  induction h with
  | nil s => exact id
  | cons _ ih => exact fun hp => ih (hs _ _ hp)

/-- A predicate kept by the calls of a path is kept along it. -/
theorem Path.closed_of_mem {P : σ → Prop} {s s' : σ} {cs : List M.Call} (h : Path M s cs s') :
    (∀ c ∈ cs, P c.pre → P c.post) → P s → P s' := by
  induction h with
  | nil s => exact fun _ => id
  | @cons s s' i cs _ ih =>
    intro hs hp
    exact ih (fun c hc => hs c (List.mem_cons_of_mem _ hc)) (hs ⟨s, i⟩ List.mem_cons_self hp)

/-- A predicate kept by every step holds before and after each call of a path. -/
theorem Path.mem_closed {P : σ → Prop} (hs : ∀ s i, P s → P (M.step s i).1) {s s' : σ}
    {cs : List M.Call} (h : Path M s cs s') (hp : P s) : ∀ c ∈ cs, P c.pre ∧ P c.post := by
  induction h with
  | nil s => simp
  | @cons s s' i cs _ ih =>
    intro c hc
    rcases List.mem_cons.1 hc with rfl | hc
    · exact ⟨hp, hs _ _ hp⟩
    · exact ih (hs _ _ hp) c hc

/-! ## Runs -/

section
variable {ok : List M.Call → ι → Prop} {s₀ : σ}

theorem Run.path {cs : List M.Call} {s : σ} (h : Run M ok s₀ cs s) : Path M s₀ cs s := by
  induction h with
  | nil => exact .nil _
  | snoc _ _ ih => exact ih.snoc _

/-- An invariant holds in every reachable state. -/
theorem Run.invariant {P : σ → Prop} (h₀ : P s₀) (hs : ∀ s i, P s → P (M.step s i).1)
    {cs : List M.Call} {s : σ} (h : Run M ok s₀ cs s) : P s :=
  h.path.closed hs h₀

/-- The run up to one of its calls, which the guard admitted there. -/
theorem Run.before {cs ds : List M.Call} {c : M.Call} {s : σ}
    (h : Run M ok s₀ (cs ++ c :: ds) s) : Run M ok s₀ cs c.pre ∧ ok cs c.input := by
  induction ds using List.reverseRecOn generalizing s with
  | nil =>
    generalize he : cs ++ [c] = l at h
    cases h with
    | nil => simp at he
    | snoc h hok =>
      obtain ⟨rfl, rfl⟩ := List.append_inj' he rfl |>.imp id (List.singleton_injective ·)
      exact ⟨h, hok⟩
  | append_singleton ds d ih =>
    generalize he : cs ++ c :: (ds ++ [d]) = l at h
    cases h with
    | nil => simp at he
    | snoc h hok =>
      rw [← List.cons_append, ← List.append_assoc] at he
      obtain ⟨rfl, -⟩ := List.append_inj' he rfl
      exact ih h

/-- The rest of a run from one of its calls. -/
theorem Run.after {cs ds : List M.Call} {c : M.Call} {s : σ}
    (h : Run M ok s₀ (cs ++ c :: ds) s) : Path M c.post ds s := by
  obtain ⟨t, -, h2⟩ := h.path.split
  exact h2.head.2

/-- The rest of a run from a state it passes. -/
theorem Run.rest {cs ds : List M.Call} {s s' : σ} (h : Run M ok s₀ cs s)
    (h' : Run M ok s₀ (cs ++ ds) s') : Path M s ds s' := by
  obtain ⟨t, h1, h2⟩ := h'.path.split
  rwa [h.path.end_eq h1]

/-- The segment of a run between two of its calls. -/
theorem Run.between {cs ds es : List M.Call} {c d : M.Call} {s : σ}
    (h : Run M ok s₀ (cs ++ c :: ds ++ d :: es) s) : Path M c.post ds d.pre := by
  rw [List.append_assoc] at h
  obtain ⟨t, h1, h2⟩ := h.after.split
  rwa [h2.head.1]

/-- A preorder respected by every step orders the calls of a run. -/
theorem Run.earlier {r : σ → σ → Prop} (hr : ∀ s, r s s) (ht : ∀ a b c, r a b → r b c → r a c)
    (hs : ∀ s i, r s (M.step s i).1) {cs ds : List M.Call} {d : M.Call} {s : σ}
    (h : Run M ok s₀ (cs ++ d :: ds) s) : ∀ c ∈ cs, r c.post d.pre := by
  intro c hc
  obtain ⟨as, bs, rfl⟩ := List.append_of_mem hc
  exact h.between.rel hr ht hs

/-- The calls of a list of inputs, made one after another. -/
def calls (M : Machine σ ι ο) : σ → List ι → List M.Call
  | _, [] => []
  | s, i :: is => ⟨s, i⟩ :: calls M (M.step s i).1 is

/-- The state a list of inputs leads to. -/
def exec (M : Machine σ ι ο) (s : σ) (is : List ι) : σ := is.foldl (fun s i => (M.step s i).1) s

theorem calls_append (M : Machine σ ι ο) (js : List ι) :
    ∀ (s : σ) (is : List ι), M.calls s (is ++ js) = M.calls s is ++ M.calls (M.exec s is) js
  | _, [] => rfl
  | s, i :: is => by
    rw [List.cons_append, calls, calls, calls_append M js, List.cons_append]
    rfl

theorem calls_input (M : Machine σ ι ο) :
    ∀ (s : σ) (is : List ι), (M.calls s is).map Call.input = is
  | _, [] => rfl
  | s, i :: is => by rw [calls, List.map_cons, calls_input M]

/-- A list of inputs is a path. -/
theorem path_exec (M : Machine σ ι ο) :
    ∀ (s : σ) (is : List ι), Path M s (M.calls s is) (M.exec s is)
  | s, [] => .nil s
  | s, i :: is => .cons (path_exec M (M.step s i).1 is)

/-- The guard admits the inputs `is` one after another, from `s` after the calls `cs`. -/
def Admits (M : Machine σ ι ο) (ok : List M.Call → ι → Prop) : List M.Call → σ → List ι → Prop
  | _, _, [] => True
  | cs, s, i :: is => ok cs i ∧ Admits M ok (cs ++ [⟨s, i⟩]) (M.step s i).1 is

/-- Admitted inputs extend a run. -/
theorem Run.extend (is : List ι) : ∀ {cs : List M.Call} {s : σ}, Run M ok s₀ cs s →
    Admits M ok cs s is → Run M ok s₀ (cs ++ M.calls s is) (M.exec s is) := by
  induction is with
  | nil => intro cs s h _; simpa [calls, exec] using h
  | cons i is ih =>
    intro cs s h ⟨hok, hadm⟩
    have := ih (.snoc h hok) hadm
    rwa [List.append_assoc] at this

/-- Inputs that are always admitted extend a run. -/
theorem Admits.of_forall {is : List ι} (h : ∀ i ∈ is, ∀ cs, ok cs i) (cs : List M.Call) (s : σ) :
    Admits M ok cs s is := by
  induction is generalizing cs s with
  | nil => trivial
  | cons i is ih =>
    exact ⟨h i List.mem_cons_self cs, ih (fun j hj => h j (List.mem_cons_of_mem _ hj)) _ _⟩

/-- Admitted inputs make a run. -/
theorem Run.of_inputs {is : List ι} (h : Admits M ok [] s₀ is) :
    Run M ok s₀ (M.calls s₀ is) (M.exec s₀ is) := by
  have := (Run.nil : Run M ok s₀ [] s₀).extend is h
  rwa [List.nil_append] at this

end

end Machine
