import ParserKit.Panic

/-!
# Sequences of operations

An object reacts to an operation by an answer and a new state, or it panics. The first panic is the
last thing that a caller sees.

* `Operations.trace`, `Operations.run`: the answers to a sequence of operations, and the state after
  it.
* `Operations.reserving`: operations that make room before they start.
* **`Operations.trace_eq`**: objects that stay related answer alike.
* **`Operations.run_eq_ok_iff`**: no room is lacking if and only if there is a state afterwards.
-/

namespace ParserKit.Operations

variable {σ τ ω α : Type}

/-- The answers to a sequence of operations, up to a panic. -/
def trace (step : σ → ω → Except Panic (α × σ)) : List ω → σ → List (Except Panic α)
  | [], _ => []
  | op :: ops, s =>
    match step s op with
    | .error panic => [.error panic]
    | .ok (answer, s) => .ok answer :: trace step ops s

/-- The state after a sequence of operations, none of which panics. -/
def run (step : σ → ω → Except Panic (α × σ)) : List ω → σ → Except Panic σ
  | [], s => .ok s
  | op :: ops, s =>
    match step s op with
    | .error panic => .error panic
    | .ok (_, s) => run step ops s

/-- Performs an operation for which there is room. -/
def reserving (limit : Nat) (room : ω → Nat) (perform : σ → ω → α × σ) (s : σ) (op : ω) :
    Except Panic (α × σ) := do
  reserve limit (room op)
  return perform s op

variable {limit : Nat} {room : ω → Nat} {f : σ → ω → α × σ} {g : τ → ω → α × τ} {s s' : σ} {t : τ}
  {op : ω} {ops : List ω}

theorem reserving_eq_ok (h : room op ≤ limit) : reserving limit room f s op = .ok (f s op) := by
  rw [reserving, reserve_eq_ok h]
  rfl

theorem reserving_eq_error (h : limit < room op) :
    reserving limit room f s op = .error .capacityOverflow := by
  rw [reserving, reserve_eq_error h]
  rfl

/-- **Two objects that stay related, and give related answers, show the same to a caller.** Here
only operations of some kind are performed. -/
theorem trace_eq {R : σ → τ → Prop} {P : ω → Prop}
    (hstep : ∀ s t op, R s t → P op → (f s op).1 = (g t op).1 ∧ R (f s op).2 (g t op).2)
    (hops : ∀ op ∈ ops, P op) (hst : R s t) :
    trace (reserving limit room f) ops s = trace (reserving limit room g) ops t := by
  induction ops generalizing s t with
  | nil => rfl
  | cons op ops ih =>
    obtain ⟨hanswer, hnext⟩ := hstep s t op hst (hops op List.mem_cons_self)
    unfold trace
    by_cases hroom : room op ≤ limit
    · simp only [reserving_eq_ok hroom, hanswer,
        ih (fun op hop => hops op (List.mem_cons_of_mem _ hop)) hnext]
    · simp only [reserving_eq_error (Nat.not_le.mp hroom)]

theorem trace_of_room (hroom : ∀ op ∈ ops, room op ≤ limit) :
    ∃ answers : List α, answers.length = ops.length ∧
      trace (reserving limit room f) ops s = answers.map .ok := by
  induction ops generalizing s with
  | nil => exact ⟨[], rfl, rfl⟩
  | cons op ops ih =>
    obtain ⟨answers, hlen, htrace⟩ := @ih (f s op).2 fun op hop =>
      hroom op (List.mem_cons_of_mem _ hop)
    refine ⟨(f s op).1 :: answers, congrArg (· + 1) hlen, ?_⟩
    simp only [trace, reserving_eq_ok (hroom op List.mem_cons_self), htrace, List.map_cons]

/-- **There is a state after a sequence of operations if there is room for each of them**, and not
otherwise. -/
theorem run_eq_ok_iff :
    run (reserving limit room f) ops s = .ok s' ↔
      (∀ op ∈ ops, room op ≤ limit) ∧ ops.foldl (fun s op => (f s op).2) s = s' := by
  induction ops generalizing s with
  | nil => simp [run]
  | cons op ops ih =>
    unfold run
    by_cases hroom : room op ≤ limit
    · simp only [reserving_eq_ok hroom, ih, List.forall_mem_cons, hroom, true_and, List.foldl_cons]
    · simp only [reserving_eq_error (Nat.not_le.mp hroom), List.forall_mem_cons, hroom, false_and,
        reduceCtorEq]

end ParserKit.Operations
