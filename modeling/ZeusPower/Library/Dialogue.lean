import Mathlib.Data.List.Basic

/-! Computations that ask.

A dialogue is over, or asks a question and goes on with the answer. A loop whose turns wait
for something outside, a person or a long experiment, is a dialogue, written as the loop.

A program that cannot wait keeps a history instead, of the questions so far with their
answers; `after` is where a dialogue stands after one. A dialogue made of two stands in the
first or in the second (`after_bind`), and one that asks at most `n` questions has no
longer histories (`Within.after`). -/
namespace ZeusPower.Library

/-- Questions `θ`, answers `α`, and a result `ρ`. -/
inductive Dialogue (θ α ρ : Type) where
  | finished (result : ρ)
  | ask (question : θ) (next : α → Dialogue θ α ρ)

namespace Dialogue
variable {θ α ρ ρ' : Type}

def bind : Dialogue θ α ρ → (ρ → Dialogue θ α ρ') → Dialogue θ α ρ'
  | .finished result, rest => rest result
  | .ask question next, rest => .ask question fun answer => (next answer).bind rest

instance : Monad (Dialogue θ α) where
  pure := .finished
  bind := bind

/-- The answer to one question. -/
def answerTo (question : θ) : Dialogue θ α α := .ask question .finished

/-! ### Histories -/

section After
variable [DecidableEq θ]

/-- Where a dialogue stands after a history; a history of other questions is none of its own. -/
def after : Dialogue θ α ρ → List (θ × α) → Option (Dialogue θ α ρ)
  | d, [] => some d
  | .finished _, _ :: _ => none
  | .ask question next, (asked, answer) :: history =>
    if asked = question then (next answer).after history else none

variable {d d' : Dialogue θ α ρ}

theorem after_nil : d.after [] = some d := by
  cases d <;> rfl

theorem after_ask (question : θ) (next : α → Dialogue θ α ρ) (answer : α) (history : List (θ × α)) :
    (ask question next).after ((question, answer) :: history) = (next answer).after history := by
  rw [after, if_pos rfl]

theorem after_cons {asked : θ} {answer : α} {history : List (θ × α)} :
    d.after ((asked, answer) :: history) = some d' ↔
      ∃ next, d = .ask asked next ∧ (next answer).after history = some d' := by
  cases d with
  | finished result =>
    constructor
    · intro h
      cases h
    · rintro ⟨next, h, -⟩
      cases h
  | ask question next =>
    rw [after]
    constructor
    · intro h
      split at h
      · next heq =>
        subst heq
        exact ⟨next, rfl, h⟩
      · cases h
    · rintro ⟨next', heq, h⟩
      obtain ⟨rfl, rfl⟩ := Dialogue.ask.inj heq
      rw [if_pos rfl]
      exact h

theorem after_append (a b : List (θ × α)) :
    d.after (a ++ b) = (d.after a).bind fun d' => d'.after b := by
  induction a generalizing d with
  | nil =>
    rw [List.nil_append, after_nil]
    rfl
  | cons entry a ih =>
    cases d with
    | finished result => rfl
    | ask question next =>
      rw [List.cons_append, after, after]
      split
      · exact ih
      · rfl

/-- The last question of a history is one the dialogue asks there. -/
theorem after_snoc {asked : θ} {answer : α} {history : List (θ × α)} :
    d.after (history ++ [(asked, answer)]) = some d' ↔
      ∃ next, d.after history = some (.ask asked next) ∧ next answer = d' := by
  rw [after_append]
  constructor
  · intro h
    obtain ⟨before, hbefore, h⟩ := Option.bind_eq_some_iff.mp h
    obtain ⟨next, rfl, hnext⟩ := after_cons.mp h
    rw [after_nil] at hnext
    exact ⟨next, hbefore, Option.some.inj hnext⟩
  · rintro ⟨next, hbefore, rfl⟩
    rw [hbefore]
    exact (after_ask asked next answer []).trans after_nil

/-- A dialogue made of two stands in the first, or the first is over and it stands in the
second. -/
theorem after_bind {e : Dialogue θ α ρ'} {rest : ρ → Dialogue θ α ρ'} {history : List (θ × α)}
    (h : (d.bind rest).after history = some e) :
    (∃ question next, d.after history = some (.ask question next) ∧ e = (ask question next).bind rest) ∨
      ∃ first second result, history = first ++ second ∧ d.after first = some (.finished result) ∧
        (rest result).after second = some e := by
  induction history generalizing d with
  | nil =>
    cases d with
    | finished result => exact Or.inr ⟨[], [], result, rfl, rfl, h⟩
    | ask question next => exact Or.inl ⟨question, next, rfl, (Option.some.inj h).symm⟩
  | cons entry history ih =>
    obtain ⟨asked, answer⟩ := entry
    cases d with
    | finished result => exact Or.inr ⟨[], _, result, rfl, rfl, h⟩
    | ask question next =>
      obtain ⟨next', heq, hrest⟩ := after_cons.mp h
      obtain ⟨rfl, rfl⟩ := Dialogue.ask.inj heq
      rcases ih hrest with ⟨question', next', hnext, rfl⟩ | ⟨first, second, result, rfl, hfirst, hsecond⟩
      · exact Or.inl ⟨question', next', (after_ask question next answer history).trans hnext, rfl⟩
      · exact Or.inr ⟨(question, answer) :: first, second, result, rfl,
          (after_ask question next answer first).trans hfirst, hsecond⟩

end After

/-! ### Bounds -/

/-- At most `n` questions, all in `Q`, whatever the answers, and then a result in `P`. -/
def Within (Q : θ → Prop) (P : ρ → Prop) : ℕ → Dialogue θ α ρ → Prop
  | _, .finished result => P result
  | 0, .ask _ _ => False
  | n + 1, .ask question next => Q question ∧ ∀ answer, (next answer).Within Q P n

namespace Within
variable {Q Q' : θ → Prop} {P P' : ρ → Prop} {R : ρ' → Prop} {n n' : ℕ} {d d' : Dialogue θ α ρ}

theorem of_finished {result : ρ} (h : P result) : (finished result : Dialogue θ α ρ).Within Q P n := by
  cases n <;> exact h

theorem result {result : ρ} (h : (finished result : Dialogue θ α ρ).Within Q P n) : P result := by
  cases n <;> exact h

theorem mono (h : d.Within Q P n) (hQ : ∀ question, Q question → Q' question) (hP : ∀ result, P result → P' result)
    (hle : n ≤ n') : d.Within Q' P' n' := by
  induction n' generalizing n d with
  | zero =>
    obtain rfl : n = 0 := by omega
    cases d with
    | finished result => exact hP result h
    | ask question next => cases h
  | succ n' ih =>
    cases d with
    | finished result => exact hP result h.result
    | ask question next =>
      cases n with
      | zero => cases h
      | succ n => exact ⟨hQ question h.1, fun answer => ih (h.2 answer) (by omega)⟩

theorem bind {k : ℕ} {rest : ρ → Dialogue θ α ρ'} (h : d.Within Q P n)
    (hrest : ∀ result, P result → (rest result).Within Q R k) : (d.bind rest).Within Q R (n + k) := by
  induction n generalizing d with
  | zero =>
    cases d with
    | finished result => exact (hrest result h).mono (fun _ h => h) (fun _ h => h) (by omega)
    | ask question next => cases h
  | succ n ih =>
    cases d with
    | finished result => exact (hrest result h).mono (fun _ h => h) (fun _ h => h) (by omega)
    | ask question next =>
      rw [Nat.add_right_comm]
      exact ⟨h.1, fun answer => ih (h.2 answer)⟩

/-- What is left after a history. -/
theorem after [DecidableEq θ] (h : d.Within Q P n) {history : List (θ × α)} (hafter : d.after history = some d') :
    (∀ entry ∈ history, Q entry.1) ∧ ∃ k, history.length + k = n ∧ d'.Within Q P k := by
  induction history generalizing n d with
  | nil =>
    rw [after_nil] at hafter
    obtain rfl := Option.some.inj hafter
    refine ⟨fun entry hentry => ?_, n, Nat.zero_add n, h⟩
    cases hentry
  | cons entry history ih =>
    obtain ⟨next, rfl, hrest⟩ := after_cons.mp hafter
    cases n with
    | zero => cases h
    | succ n =>
      obtain ⟨hall, k, hlength, hleft⟩ := ih (h.2 _) hrest
      refine ⟨fun e he => ?_, k, ?_, hleft⟩
      · rcases List.mem_cons.mp he with rfl | he
        · exact h.1
        · exact hall e he
      · rw [List.length_cons]
        omega

end Within

end Dialogue

end ZeusPower.Library
