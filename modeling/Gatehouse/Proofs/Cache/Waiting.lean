import Mathlib.Algebra.GroupWithZero.Nat
import Gatehouse.Flow

/-!
# Waiting for a body

**`Flow.asks_until_answer`**: a client that asks for a frame again and again, until there is an
answer, gets the answer that `Body.poll` gives at once, and what is left of the body and of the
world is the same. So all that is said of a `Body` that is asked without interruption is said of
every client that waits.

Asking with `n` things ready and then, without an answer, with `m` more is asking with `n + m` of
them, `Flow.ask_add`; and with as many as there are copies, and one more for the frame, there is an
answer, `Flow.ask_flow`.
-/

namespace Gatehouse

open Cache

/-- How many copies, one inside the other, a body has. -/
def Body.copies : Body → Nat
  | copied inner _ => inner.copies + 1
  | _ => 0

namespace Flow

theorem isEnded_flow (b : Body) : b.flow.isEnded = b.isEnded := by
  induction b with
  | full | framed => rfl
  | copied inner copy ih =>
    rcases copy with _ | c
    · exact ih
    · rfl

variable {σ : Type} [CacheStore σ]

theorem discard_flow (b : Body) : (b.flow.discard : Run σ Unit) = b.discard := by
  induction b with
  | full | framed => rfl
  | copied inner copy ih =>
    rcases copy with _ | c
    · exact ih
    · rw [Body.flow, Copy.ofCapture, discard, ih, isEnded_flow]
      rfl

/-! ## With everything ready -/

/-- Nothing has to be waited for if all is ready that a body may wait for. -/
theorem ask_flow (b : Body) {n : Nat} (hn : b.copies < n) (w : World σ) :
    ∃ left, n ≤ left + (b.copies + 1) ∧
      b.flow.ask n w = ((some ((b.poll w).1.1, left), (b.poll w).1.2.flow), (b.poll w).2) := by
  induction b generalizing n with
  | full data =>
    obtain ⟨n, rfl⟩ := Nat.exists_eq_succ_of_ne_zero (Nat.ne_zero_of_lt hn)
    refine ⟨n, Nat.le_refl _, ?_⟩
    cases data <;> rfl
  | framed frames said announced =>
    obtain ⟨n, rfl⟩ := Nat.exists_eq_succ_of_ne_zero (Nat.ne_zero_of_lt hn)
    refine ⟨n, Nat.le_refl _, ?_⟩
    cases frames <;> rfl
  | copied inner copy ih =>
    rw [Body.copies] at hn ⊢
    obtain ⟨left, hleft, hask⟩ := ih (Nat.lt_of_succ_lt hn)
    rcases hpoll : inner.poll w with ⟨⟨answer, rest⟩, w'⟩
    rw [hpoll] at hask
    rcases copy with _ | c
    · refine ⟨left, by omega, ?_⟩
      rcases answer with _ | _ | _ | _ <;>
        simp only [Body.flow, Copy.ofCapture, ask, Body.poll, bind, StateT.bind, hask, hpoll] <;>
        rfl
    · rcases answer with _ | frame
      -- one thing more than the inner body needs is ready: the answer to the write
      · obtain ⟨left, rfl⟩ : ∃ k, left = k + 1 := Nat.exists_eq_succ_of_ne_zero (by omega)
        refine ⟨left, by omega, ?_⟩
        simp only [Body.flow, Copy.ofCapture, ask, Body.poll, bind, StateT.bind, hask, hpoll]
        rfl
      · refine ⟨left, by omega, ?_⟩
        rcases frame with data | h | reason <;>
          simp only [Body.flow, Copy.ofCapture, ask, Body.poll, bind, StateT.bind, hask, hpoll,
            Capture.follow] <;> rfl

/-! ## Asking again -/

/-- What a question comes to when more things are ready: an answer leaves them over, and without an
answer it goes on as if it were asked again. -/
def resumed (m : Nat) : (Option (Option Frame × Nat) × Flow) × World σ →
    (Option (Option Frame × Nat) × Flow) × World σ
  | ((none, rest), w) => rest.ask m w
  | ((some (answer, left), rest), w) => ((some (answer, left + m), rest), w)

theorem await_add (inner : Flow) (c : Capture) (n m : Nat) (w : World σ) :
    await inner c (n + m) w = resumed m (await inner c n w) := by
  rcases n with _ | n
  · rw [Nat.zero_add]
    rfl
  · rw [Nat.succ_add]
    rfl

theorem ask_add (f : Flow) (n m : Nat) (w : World σ) :
    f.ask (n + m) w = resumed m (f.ask n w) := by
  induction f generalizing n w with
  | plain b =>
    rcases n with _ | n
    · rw [Nat.zero_add]
      rfl
    · rw [Nat.succ_add]
      rfl
  | copied inner copy ih =>
    rcases copy with c | c | _
    · have hinner := ih n w
      rcases hask : inner.ask n w with ⟨⟨_ | ⟨_ | frame, left⟩, rest⟩, w'⟩ <;> rw [hask] at hinner
      · simp only [ask, bind, StateT.bind, hask, hinner]
        rfl
      -- at the end of the body inside, what is left over is for the answer of the store
      · simp only [ask, bind, StateT.bind, hask, hinner, resumed]
        exact await_add rest c left m _
      · simp only [ask, bind, StateT.bind, hask, hinner, resumed]
        rfl
    · exact await_add inner c n m w
    · have hinner := ih n w
      rcases hask : inner.ask n w with ⟨⟨_ | ⟨answer, left⟩, rest⟩, w'⟩ <;> rw [hask] at hinner
      · simp only [ask, bind, StateT.bind, hask, hinner]
        rfl
      · simp only [ask, bind, StateT.bind, hask, hinner, resumed]
        rfl

/-- Ask a body again and again, whether there is an answer or not: the answers there were, and what
is left of the body. -/
def asks : List Nat → Flow → Run σ (List (Option Frame) × Flow)
  | [], f => return ([], f)
  | n :: ns, f => do
    let (answer, f) ← f.ask n
    let (told, f) ← asks ns f
    return ((answer.map Prod.fst).toList ++ told, f)

/-- Questions without an answer, and one behind them, are one question with all that was ready for
any of them. -/
theorem asks_concat {ns : List Nat} {f : Flow} {w : World σ} (h : (asks ns f w).1.1 = [])
    (n : Nat) :
    asks (ns ++ [n]) f w =
      let asked := f.ask (ns.sum + n) w
      (((asked.1.1.map Prod.fst).toList, asked.1.2), asked.2) := by
  -- the first question leaves no answer, so it is one with the questions behind it
  induction ns generalizing f w with
  | nil =>
    simp only [List.nil_append, List.sum_nil, Nat.zero_add, asks, bind, StateT.bind]
    rw [← List.append_nil (Option.map Prod.fst (f.ask n w).1.1).toList]
    rfl
  | cons m ns ih =>
    rcases hask : f.ask m w with ⟨⟨_ | ⟨answer, left⟩, rest⟩, w'⟩
    · simp only [asks, bind, StateT.bind, hask] at h
      have hrest : (asks ns rest w').1.1 = [] := h
      rw [List.sum_cons, Nat.add_assoc, ask_add, hask, resumed, ← ih hrest, List.cons_append]
      simp only [asks, bind, StateT.bind, hask]
      rfl
    · simp only [asks, bind, StateT.bind, hask] at h
      cases h

/-- **Waiting changes nothing.** -/
theorem asks_until_answer (b : Body) {ns : List Nat} {n : Nat} {w : World σ}
    (hnone : (asks ns b.flow w).1.1 = []) (hsome : (asks (ns ++ [n]) b.flow w).1.1 ≠ []) :
    asks (ns ++ [n]) b.flow w
      = (([(b.poll w).1.1], (b.poll w).1.2.flow), (b.poll w).2) := by
  rw [asks_concat hnone] at hsome ⊢
  rcases hask : b.flow.ask (ns.sum + n) w with ⟨⟨_ | ⟨answer, left⟩, rest⟩, w'⟩ <;>
    rw [hask] at hsome
  · exact absurd rfl hsome
  · -- there is the same answer if more is ready, and then it is the answer of the body
    have hmore := ask_add b.flow (ns.sum + n) (b.copies + 1) w
    obtain ⟨left', -, hall⟩ := ask_flow b (n := ns.sum + n + (b.copies + 1)) (by omega) w
    rw [hall, hask, resumed] at hmore
    injection hmore with hmore hworld
    injection hmore with hanswer hrest
    injection hanswer with hanswer
    injection hanswer with hanswer
    subst hanswer hrest hworld
    rfl

end Flow

end Gatehouse
