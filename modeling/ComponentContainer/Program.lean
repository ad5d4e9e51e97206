/-
  File:      ComponentContainer/Program.lean
  Subject:   Programs that ask a container for things.

  * `Interface` -- what may be asked, and the type of each answer.
  * `Program I α` -- a tree of requests: each answer decides how it goes on, and every branch
    ends with a result. A program is data, so a law can speak of all programs at once.
  * `Handler I σ` -- a way to answer requests over states `σ`; it may decline (`none`), which
    stands for a request that is never answered.
  * `Program.run` -- runs a program against a handler; `run_bind` -- a sequence runs in sequence.
  * `Program.requests` -- the requests a run makes, with their answers, in order.
  * `Program.embed` -- the same program over a larger interface.
-/
namespace ComponentContainer

/-! ## 1. Interfaces and programs -/

/-- What may be asked, and the type of each answer. -/
structure Interface where
  Request : Type
  Answer : Request → Type

/-- A tree of requests that ends with a result. -/
inductive Program (I : Interface) (α : Type) : Type where
  | done (result : α)
  | ask (request : I.Request) (next : I.Answer request → Program I α)

namespace Program

variable {I : Interface} {α β γ : Type}

/-- Goes on with the result of the first program. -/
def bind : Program I α → (α → Program I β) → Program I β
  | .done a, f => f a
  | .ask r next, f => .ask r fun answer => (next answer).bind f

instance : Monad (Program I) where
  pure := .done
  bind := bind

/-- One request, whose answer is the result. -/
def request (r : I.Request) : Program I (I.Answer r) := .ask r .done

@[simp] theorem done_bind (a : α) (f : α → Program I β) : (done a : Program I α) >>= f = f a := rfl

@[simp] theorem ask_bind (r : I.Request) (next : I.Answer r → Program I α)
    (f : α → Program I β) : ask r next >>= f = ask r fun answer => next answer >>= f := rfl

theorem bind_done (p : Program I α) : p.bind .done = p := by
  induction p with
  | done a => rfl
  | ask r next ih => exact congrArg (ask r) (funext ih)

theorem bind_assoc (p : Program I α) (f : α → Program I β) (g : β → Program I γ) :
    (p.bind f).bind g = p.bind fun a => (f a).bind g := by
  induction p with
  | done a => rfl
  | ask r next ih => exact congrArg (ask r) (funext ih)

instance : LawfulMonad (Program I) :=
  LawfulMonad.mk' (Program I) (fun p => bind_done p) (fun _ _ => rfl) bind_assoc

/-! ## 2. Running -/

/-- A way to answer requests; `none` stands for a request that is never answered. -/
abbrev Handler (I : Interface) (σ : Type) := (r : I.Request) → σ → Option (I.Answer r × σ)

variable {σ : Type}

/-- Runs a program: each request is answered in the state the answers so far have led to. -/
def run (serve : Handler I σ) : Program I α → σ → Option (α × σ)
  | .done a, s => some (a, s)
  | .ask r next, s =>
    match serve r s with
    | none => none
    | some (answer, s') => (next answer).run serve s'

@[simp] theorem run_done (serve : Handler I σ) (a : α) (s : σ) :
    (done a : Program I α).run serve s = some (a, s) := rfl

/-- **A sequence runs in sequence.** -/
theorem run_bind (serve : Handler I σ) (p : Program I α) (f : α → Program I β) (s : σ) :
    (p >>= f).run serve s =
      match p.run serve s with
      | none => none
      | some (a, s') => (f a).run serve s' := by
  induction p generalizing s with
  | done a => rfl
  | ask r next ih =>
    rw [ask_bind, run, run]
    cases serve r s with
    | none => rfl
    | some answered => exact ih answered.1 answered.2

/-! ## 3. The requests of a run -/

/-- A request with the answer it got. -/
abbrev Exchange (I : Interface) := (r : I.Request) × I.Answer r

/-- The requests a run makes, with their answers, in order; up to the first one that is never
    answered. -/
def requests (serve : Handler I σ) : Program I α → σ → List (Exchange I)
  | .done _, _ => []
  | .ask r next, s =>
    match serve r s with
    | none => []
    | some (answer, s') => ⟨r, answer⟩ :: (next answer).requests serve s'

/-! ## 4. Embedding -/

/-- The same program over a larger interface, whose requests `into` include those of the smaller
    one with the same answers. -/
def embed {J : Interface} (into : I.Request → J.Request)
    (back : (r : I.Request) → J.Answer (into r) → I.Answer r) : Program I α → Program J α
  | .done a => .done a
  | .ask r next => .ask (into r) fun answer => (next (back r answer)).embed into back

end Program

end ComponentContainer
