import BrokerBridge.Host.Lock
import Mathlib.Algebra.BigOperators.Fin
import Mathlib.Algebra.Order.BigOperators.Group.Finset

/-!
# Threads

Threads share a state, and each keeps a stack of what it is inside of, the innermost first. A
program says what a move of one thread makes of both; an interleaving is a list of moves, each
made by one of the threads.
-/

namespace BrokerBridge

/-- What a thread's move makes of the shared state and of the thread's own stack; none where the
move is not possible now. -/
abbrev Program (σ φ μ : Type) := σ → ThreadId → List φ → μ → Option (σ × List φ)

structure Threads (n : Nat) (σ φ : Type) where
  shared : σ
  stackOf : Fin n → List φ

namespace Threads

variable {n : Nat} {σ φ μ : Type} {p : Program σ φ μ}

def atRest (shared : σ) : Threads n σ φ := ⟨shared, fun _ => []⟩

def AtRest (s : Threads n σ φ) : Prop := ∀ t, s.stackOf t = []

instance (s : Threads n σ φ) : Decidable s.AtRest :=
  decidable_of_iff (∀ t, (s.stackOf t).isEmpty = true) (by simp [AtRest])

def set (s : Threads n σ φ) (t : Fin n) (shared : σ) (stack : List φ) : Threads n σ φ :=
  ⟨shared, Function.update s.stackOf t stack⟩

@[simp] theorem shared_set (s : Threads n σ φ) (t : Fin n) (shared : σ) (stack : List φ) :
    (s.set t shared stack).shared = shared := rfl

@[simp] theorem stackOf_set_self (s : Threads n σ φ) (t : Fin n) (shared : σ) (stack : List φ) :
    (s.set t shared stack).stackOf t = stack := by
  simp [set]

theorem stackOf_set_of_ne (s : Threads n σ φ) {t u : Fin n} (h : u ≠ t) (shared : σ)
    (stack : List φ) : (s.set t shared stack).stackOf u = s.stackOf u := by
  simp [set, h]

theorem set_set (s : Threads n σ φ) (t : Fin n) (shared shared' : σ) (stack stack' : List φ) :
    (s.set t shared stack).set t shared' stack' = s.set t shared' stack' := by
  simp [set]

@[simp] theorem set_stackOf (s : Threads n σ φ) (t : Fin n) (shared : σ) :
    s.set t shared (s.stackOf t) = ⟨shared, s.stackOf⟩ := by
  simp [set]

/-- What holds of every thread's own stack after a move. -/
theorem forall_set (s : Threads n σ φ) (P : Fin n → List φ → Prop) {t : Fin n} {shared : σ}
    {stack : List φ} (hs : ∀ u, u ≠ t → P u (s.stackOf u)) (ht : P t stack) (u : Fin n) :
    P u ((s.set t shared stack).stackOf u) := by
  by_cases hu : u = t
  · subst hu
    rw [stackOf_set_self]
    exact ht
  · rw [stackOf_set_of_ne s hu]
    exact hs u hu

/-- What holds of everything that a thread is inside of. -/
theorem forall_mem_set {P : Fin n → φ → Prop} {s : Threads n σ φ}
    (hs : ∀ u, ∀ f ∈ s.stackOf u, P u f) (t : Fin n) {stack : List φ}
    (hstack : ∀ f ∈ stack, P t f) (shared : σ) :
    ∀ u, ∀ f ∈ (s.set t shared stack).stackOf u, P u f := by
  intro u f hf
  by_cases hu : u = t
  · subst hu
    rw [stackOf_set_self] at hf
    exact hstack f hf
  · rw [stackOf_set_of_ne s hu] at hf
    exact hs u f hf

theorem forall_mem_push {P : Fin n → φ → Prop} {s : Threads n σ φ}
    (hs : ∀ u, ∀ f ∈ s.stackOf u, P u f) (t : Fin n) {f : φ} (hf : P t f) (shared : σ) :
    ∀ u, ∀ g ∈ (s.set t shared (f :: s.stackOf t)).stackOf u, P u g :=
  forall_mem_set hs t (List.forall_mem_cons.mpr ⟨hf, hs t⟩) shared

theorem mem_of_exchange {s : Threads n σ φ} {t : Fin n} {before : Option φ} {rest : List φ}
    (h : s.stackOf t = before.toList ++ rest) {f : φ} (hf : f ∈ before) : f ∈ s.stackOf t := by
  rw [h]
  exact List.mem_append_left _ (Option.mem_toList.mpr hf)

/-- What holds of everything that a thread is inside of, when the innermost of a stack, or nothing,
has given way to what becomes of it. -/
theorem forall_mem_exchange {P : Fin n → φ → Prop} {s : Threads n σ φ}
    (hs : ∀ u, ∀ f ∈ s.stackOf u, P u f) {t : Fin n} {before after : Option φ} {rest : List φ}
    (h : s.stackOf t = before.toList ++ rest) (hafter : ∀ f ∈ after, P t f) (shared : σ) :
    ∀ u, ∀ f ∈ (s.set t shared (after.toList ++ rest)).stackOf u, P u f := by
  refine forall_mem_set hs t (fun f hf => ?_) shared
  rcases List.mem_append.mp hf with hf | hf
  · exact hafter f (Option.mem_toList.mp hf)
  · exact hs t f (by rw [h]; exact List.mem_append_right _ hf)

def step? (p : Program σ φ μ) (s : Threads n σ φ) (t : Fin n) (m : μ) :
    Option (Threads n σ φ) :=
  (p s.shared t (s.stackOf t) m).map fun r => s.set t r.1 r.2

def play? (p : Program σ φ μ) (s : Threads n σ φ) : List (Fin n × μ) → Option (Threads n σ φ)
  | [] => some s
  | (t, m) :: rest => (s.step? p t m).bind fun s => s.play? p rest

theorem exists_of_step? {s s' : Threads n σ φ} {t : Fin n} {m : μ} (h : s.step? p t m = some s') :
    ∃ shared stack, p s.shared t (s.stackOf t) m = some (shared, stack) ∧
      s' = s.set t shared stack := by
  obtain ⟨⟨shared, stack⟩, hp, rfl⟩ := Option.map_eq_some_iff.mp h
  exact ⟨shared, stack, hp, rfl⟩

theorem play?_append {before after : List (Fin n × μ)} {s : Threads n σ φ} :
    s.play? p (before ++ after) = (s.play? p before).bind fun s => s.play? p after := by
  induction before generalizing s with
  | nil => rfl
  | cons move rest ih =>
    obtain ⟨t, m⟩ := move
    rw [List.cons_append, play?, play?, Option.bind_assoc]
    exact congrArg _ (funext fun s' => ih)

/-- What holds at first and is kept by every move of an interleaving holds at its end. -/
theorem play?_induction {P : Threads n σ φ → Prop} {moves : List (Fin n × μ)}
    (hstep : ∀ s t m s', (t, m) ∈ moves → P s → s.step? p t m = some s' → P s')
    {s s' : Threads n σ φ} (h0 : P s) (h : s.play? p moves = some s') : P s' := by
  induction moves generalizing s with
  | nil =>
    cases h
    exact h0
  | cons move rest ih =>
    obtain ⟨t, m⟩ := move
    obtain ⟨s₁, h₁, h₂⟩ := Option.bind_eq_some_iff.mp h
    have hrest : ∀ s t m s', (t, m) ∈ rest → P s → s.step? p t m = some s' → P s' :=
      fun s t m s' hm => hstep s t m s' (List.mem_cons_of_mem _ hm)
    exact ih hrest (hstep s t m s₁ (List.mem_cons_self ..) h0 h₁) h₂

/-- `Q` holds before and after every move of an interleaving. -/
def Throughout (p : Program σ φ μ) (Q : Threads n σ φ → Prop) (s : Threads n σ φ) :
    List (Fin n × μ) → Prop
  | [] => Q s
  | (t, m) :: rest => Q s ∧ ∀ s', s.step? p t m = some s' → s'.Throughout p Q rest

theorem Throughout.first {Q : Threads n σ φ → Prop} {s : Threads n σ φ}
    {moves : List (Fin n × μ)} (h : s.Throughout p Q moves) : Q s := by
  cases moves with
  | nil => exact h
  | cons _ _ => exact h.1

instance decidableThroughout {Q : Threads n σ φ → Prop} [DecidablePred Q] :
    (s : Threads n σ φ) → (moves : List (Fin n × μ)) → Decidable (s.Throughout p Q moves)
  | s, [] => inferInstanceAs (Decidable (Q s))
  | s, (t, m) :: rest =>
      match h : s.step? p t m with
      | none => decidable_of_iff (Q s) (by simp [Throughout, h])
      | some s' =>
          have : Decidable (s'.Throughout p Q rest) := decidableThroughout s' rest
          decidable_of_iff (Q s ∧ s'.Throughout p Q rest) (by simp [Throughout, h])

/-- As `play?_induction`, for what is kept as long as `Q` holds. -/
theorem play?_induction_throughout {P Q : Threads n σ φ → Prop} {moves : List (Fin n × μ)}
    (hstep : ∀ s t m s', (t, m) ∈ moves → P s → Q s → Q s' → s.step? p t m = some s' → P s')
    {s s' : Threads n σ φ} (h0 : P s) (hQ : s.Throughout p Q moves)
    (h : s.play? p moves = some s') : P s' := by
  induction moves generalizing s with
  | nil =>
    cases h
    exact h0
  | cons move rest ih =>
    obtain ⟨t, m⟩ := move
    obtain ⟨s₁, h₁, h₂⟩ := Option.bind_eq_some_iff.mp h
    have hrest := hQ.2 s₁ h₁
    have hfirst := hstep s t m s₁ (List.mem_cons_self ..) h0 hQ.1 hrest.first h₁
    exact ih (fun s t m s' hm => hstep s t m s' (List.mem_cons_of_mem _ hm)) hfirst hrest h₂

/-- What every move keeps holds throughout. -/
theorem throughout_of_step? {P Q : Threads n σ φ → Prop} {moves : List (Fin n × μ)}
    (hQ : ∀ s, P s → Q s)
    (hstep : ∀ s t m s', (t, m) ∈ moves → P s → s.step? p t m = some s' → P s')
    {s : Threads n σ φ} (h : P s) : s.Throughout p Q moves := by
  induction moves generalizing s with
  | nil => exact hQ s h
  | cons move rest ih =>
    obtain ⟨t, m⟩ := move
    refine ⟨hQ s h, fun s' hs' => ih ?_ (hstep s t m s' (List.mem_cons_self ..) h hs')⟩
    exact fun s t m s' hm => hstep s t m s' (List.mem_cons_of_mem _ hm)

def Along (p : Program σ φ μ) (Q : Threads n σ φ → Fin n → μ → Prop) (s : Threads n σ φ) :
    List (Fin n × μ) → Prop
  | [] => True
  | (t, m) :: rest => Q s t m ∧ ∀ s', s.step? p t m = some s' → s'.Along p Q rest

instance decidableAlong {Q : Threads n σ φ → Fin n → μ → Prop} [∀ s t m, Decidable (Q s t m)] :
    (s : Threads n σ φ) → (moves : List (Fin n × μ)) → Decidable (s.Along p Q moves)
  | _, [] => isTrue True.intro
  | s, (t, m) :: rest =>
      match h : s.step? p t m with
      | none => decidable_of_iff (Q s t m) (by simp [Along, h])
      | some s' =>
          have : Decidable (s'.Along p Q rest) := decidableAlong s' rest
          decidable_of_iff (Q s t m ∧ s'.Along p Q rest) (by simp [Along, h])

/-- As `play?_induction`, for what is kept by moves of which `Q` holds. -/
theorem play?_induction_along {P : Threads n σ φ → Prop}
    {Q : Threads n σ φ → Fin n → μ → Prop} {moves : List (Fin n × μ)}
    (hstep : ∀ s t m s', P s → Q s t m → s.step? p t m = some s' → P s')
    {s s' : Threads n σ φ} (h0 : P s) (hQ : s.Along p Q moves)
    (h : s.play? p moves = some s') : P s' := by
  induction moves generalizing s with
  | nil =>
    cases h
    exact h0
  | cons move rest ih =>
    obtain ⟨t, m⟩ := move
    obtain ⟨s₁, h₁, h₂⟩ := Option.bind_eq_some_iff.mp h
    exact ih (hstep s t m s₁ h0 hQ.1 h₁) (hQ.2 s₁ h₁) h₂

def collect {γ : Type} (p : Program σ φ μ) (f : Threads n σ φ → Fin n → μ → Option γ)
    (s : Threads n σ φ) : List (Fin n × μ) → List γ
  | [] => []
  | (t, m) :: rest =>
      (f s t m).toList ++ (s.step? p t m).elim [] fun s' => s'.collect p f rest

theorem collect_cons {γ : Type} {f : Threads n σ φ → Fin n → μ → Option γ}
    {s s' : Threads n σ φ} {t : Fin n} {m : μ} (h : s.step? p t m = some s')
    (rest : List (Fin n × μ)) :
    s.collect p f ((t, m) :: rest) = (f s t m).toList ++ s'.collect p f rest := by
  simp [collect, h]

/-! ## Places -/

/-- What a thread is inside of that has so much below it. -/
def placed (s : Threads n σ φ) (t : Fin n) (depth : Nat) : Option φ :=
  (s.stackOf t).reverse[depth]?

/-- The innermost of a stack, or nothing, and what becomes of it, are at the same place, and nothing
else changes. -/
theorem placed_exchange {s : Threads n σ φ} {t : Fin n} {before : Option φ} {rest : List φ}
    (h : s.stackOf t = before.toList ++ rest) (shared : σ) (after : Option φ) (u : Fin n)
    (depth : Nat) :
    (s.set t shared (after.toList ++ rest)).placed u depth =
      if u = t ∧ depth = rest.length then after else s.placed u depth := by
  by_cases hu : u = t
  · subst hu
    have hlast (f : Option φ) : (f.toList ++ rest).reverse[depth]? =
        if depth < rest.length then rest.reverse[depth]?
        else if depth = rest.length then f else none := by
      cases f with
      | none =>
        by_cases hlt : depth < rest.length <;> simp [hlt]
      | some x =>
        rw [Option.toList_some, List.singleton_append, List.reverse_cons, List.getElem?_append]
        by_cases hlt : depth < rest.length
        · simp [hlt]
        · by_cases heq : depth = rest.length
          · simp [heq]
          · have hgt : depth - rest.length ≠ 0 := by omega
            simp [hlt, heq, hgt]
    rw [placed, placed, stackOf_set_self, h, hlast after, hlast before]
    by_cases heq : depth = rest.length <;> simp [heq]
  · rw [placed, placed, stackOf_set_of_ne s hu]
    simp [hu]

theorem placed_of_exchange {s : Threads n σ φ} {t : Fin n} {before : Option φ} {rest : List φ}
    (h : s.stackOf t = before.toList ++ rest) : s.placed t rest.length = before := by
  have hsame := placed_exchange h s.shared before t rest.length
  rw [← h, set_stackOf] at hsame
  simpa using hsame

theorem mem_of_placed {s : Threads n σ φ} {t : Fin n} {depth : Nat} {f : φ}
    (h : s.placed t depth = some f) : f ∈ s.stackOf t :=
  List.mem_reverse.mp (List.mem_of_getElem? h)

/-! ## Weights -/

/-- The sum of a weight over everything that some thread is inside of. -/
def weight (w : φ → Nat) (s : Threads n σ φ) : Nat := ∑ t, ((s.stackOf t).map w).sum

theorem weight_set (w : φ → Nat) (s : Threads n σ φ) (t : Fin n) (shared : σ)
    (stack : List φ) :
    (s.set t shared stack).weight w + ((s.stackOf t).map w).sum =
      s.weight w + (stack.map w).sum := by
  have hnew := Finset.add_sum_erase Finset.univ
    (fun u => (((s.set t shared stack).stackOf u).map w).sum) (Finset.mem_univ t)
  have hold := Finset.add_sum_erase Finset.univ (fun u => ((s.stackOf u).map w).sum)
    (Finset.mem_univ t)
  have hrest : ∑ u ∈ Finset.univ.erase t, (((s.set t shared stack).stackOf u).map w).sum =
      ∑ u ∈ Finset.univ.erase t, ((s.stackOf u).map w).sum := by
    apply Finset.sum_congr rfl
    intro u hu
    rw [stackOf_set_of_ne s (Finset.ne_of_mem_erase hu)]
  simp only [stackOf_set_self] at hnew
  unfold weight
  omega

/-- The innermost of a stack, or nothing, gives way to what becomes of it. -/
theorem weight_exchange (w : φ → Nat) {s : Threads n σ φ} {t : Fin n} {before : Option φ}
    {rest : List φ} (h : s.stackOf t = before.toList ++ rest) (shared : σ) (after : Option φ) :
    (s.set t shared (after.toList ++ rest)).weight w + before.elim 0 w =
      s.weight w + after.elim 0 w := by
  have hw := s.weight_set w t shared (after.toList ++ rest)
  rw [h, List.map_append, List.sum_append, List.map_append, List.sum_append] at hw
  have hsum (f : Option φ) : (f.toList.map w).sum = f.elim 0 w := by cases f <;> simp
  rw [hsum, hsum] at hw
  omega

theorem weight_push (w : φ → Nat) (s : Threads n σ φ) (t : Fin n) (shared : σ) (f : φ) :
    (s.set t shared (f :: s.stackOf t)).weight w = s.weight w + w f :=
  @weight_exchange _ _ _ w s t none _ rfl shared (some f)

theorem weight_replace (w : φ → Nat) {s : Threads n σ φ} {t : Fin n} {f : φ} {rest : List φ}
    (h : s.stackOf t = f :: rest) (shared : σ) (f' : Option φ) :
    (s.set t shared (f'.toList ++ rest)).weight w + w f = s.weight w + f'.elim 0 w :=
  @weight_exchange _ _ _ w s t (some f) _ h shared f'

theorem weight_le_weight (s : Threads n σ φ) {v w : φ → Nat} (h : ∀ f, v f ≤ w f) :
    s.weight v ≤ s.weight w := by
  apply Finset.sum_le_sum
  intro t _
  exact List.sum_le_sum fun f _ => h f

/-- Where the innermost of a stack weighs all that there is, nothing else weighs anything. -/
theorem weight_rest_eq_zero {w : φ → Nat} {s : Threads n σ φ} {t : Fin n} {f : φ} {rest : List φ}
    (h : s.stackOf t = f :: rest) (hle : s.weight w ≤ w f) (shared : σ) :
    (s.set t shared rest).weight w = 0 := by
  have hrest : (s.set t shared rest).weight w + w f = s.weight w :=
    weight_replace w h shared none
  omega

theorem weight_eq_of_le {v w : φ → Nat} {s : Threads n σ φ} {t : Fin n} {f : φ} {rest : List φ}
    (h : s.stackOf t = f :: rest) (hvw : ∀ f, v f ≤ w f) (hle : s.weight w ≤ w f) :
    s.weight v = v f := by
  have hnone := weight_rest_eq_zero h hle s.shared
  have hless := (s.set t s.shared rest).weight_le_weight hvw
  have hrest : (s.set t s.shared rest).weight v + v f = s.weight v :=
    weight_replace v h s.shared none
  omega

theorem weight_eq_zero_iff {w : φ → Nat} {s : Threads n σ φ} :
    s.weight w = 0 ↔ ∀ t, ∀ f ∈ s.stackOf t, w f = 0 := by
  unfold weight
  rw [Finset.sum_eq_zero_iff]
  constructor
  · intro h t f hf
    have ht := List.sum_eq_zero_iff_forall_eq_nat.mp (h t (Finset.mem_univ t))
    exact ht (w f) (List.mem_map_of_mem hf)
  · intro h t _
    apply List.sum_eq_zero_iff_forall_eq_nat.mpr
    intro x hx
    obtain ⟨f, hf, rfl⟩ := List.mem_map.mp hx
    exact h t f hf

theorem le_weight (w : φ → Nat) {s : Threads n σ φ} {t : Fin n} {f : φ} (hf : f ∈ s.stackOf t) :
    w f ≤ s.weight w := by
  have hstack := List.le_sum_of_mem (List.mem_map_of_mem (f := w) hf)
  have hall := Finset.single_le_sum (f := fun u => ((s.stackOf u).map w).sum)
    (fun _ _ => Nat.zero_le _) (Finset.mem_univ t)
  exact Nat.le_trans hstack hall

@[simp] theorem weight_atRest (w : φ → Nat) (shared : σ) :
    (atRest (n := n) (φ := φ) shared).weight w = 0 := by
  simp [weight, atRest]

theorem weight_eq_zero_of_atRest {s : Threads n σ φ} (h : s.AtRest) (w : φ → Nat) :
    s.weight w = 0 := by
  rw [weight_eq_zero_iff]
  intro t f hf
  rw [h t] at hf
  cases hf

end Threads

/-! ## Logs -/

/-- Every entry of a log was in order when it was made, after those before it. -/
def InOrder {α : Type} (Q : List α → α → Prop) (log : List α) : Prop :=
  ∀ before entry after, log = before ++ entry :: after → Q before entry

theorem getElem?_of_initial {α : Type} {l l' : List α} (h : l <+: l') {i : Nat} {a : α}
    (hi : l[i]? = some a) : l'[i]? = some a := by
  obtain ⟨hlt, rfl⟩ := List.getElem?_eq_some_iff.mp hi
  exact List.prefix_iff_getElem?.mp h i hlt

theorem inOrder_nil {α : Type} (Q : List α → α → Prop) : InOrder Q [] := by
  intro before entry after h
  simp at h

theorem InOrder.append {α : Type} {Q : List α → α → Prop} {log : List α} (h : InOrder Q log)
    {entry : α} (he : Q log entry) : InOrder Q (log ++ [entry]) := by
  intro before e after heq
  rcases List.eq_nil_or_concat after with rfl | ⟨after', last, rfl⟩
  · obtain ⟨rfl, hlast⟩ := List.append_inj' heq rfl
    cases hlast
    exact he
  · rw [List.concat_eq_append, ← List.cons_append, ← List.append_assoc] at heq
    obtain ⟨rfl, _⟩ := List.append_inj' heq rfl
    exact h before e after' rfl

end BrokerBridge
