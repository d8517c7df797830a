import Stackwright.Registry

/-! # Clients of a shared registry

Any number of **clients** use one registry at the same time. A client runs an **errand**: it asks for
procedures, and the build of a request is an errand again, so requests nest to any depth. Every access
happens at once, and between two accesses of one client the others take as many steps as they like. A
**schedule** says whose turn it is; a statement about every schedule is one about every interleaving.

The steps leave a log. What the world outside answers to a client is part of the schedule as well, so an
errand may depend on anything: on the clock, on other registries, on what another client does. -/

namespace Stackwright

namespace Registry

/-- What a request tells besides its accesses. -/
inductive Remark
  /-- The request for a key begins. -/
  | asked (key : String)
  /-- Its build begins. -/
  | building
  /-- Its build ends. -/
  | built (result : Except BuildError Procedure)
  /-- A warning is written. -/
  | warned (text : String)
  /-- The request ends. -/
  | answered (result : Except BuildError Procedure)

/-- An entry of the log. -/
inductive Event
  /-- A remark. -/
  | remark (r : Remark)
  /-- A key is looked up. -/
  | looked (key : String) (found : Option Procedure)
  /-- A procedure is offered for a key, and the key's procedure is taken. -/
  | settled (key : String) (offered winner : Procedure)

/-- A **course** of steps on a shared registry. Accesses and remarks belong to a numbered request. -/
inductive Course (α : Type)
  /-- No step is left. -/
  | done (a : α)
  /-- Looks a key up. -/
  | look (id : Nat) (key : String) (next : Option Procedure → Course α)
  /-- Settles a key. -/
  | settle (id : Nat) (key : String) (p : Procedure) (next : Procedure → Course α)
  /-- Leaves a remark. -/
  | remark (id : Nat) (r : Remark) (next : Course α)
  /-- Takes the next number. -/
  | number (next : Nat → Course α)
  /-- Asks the world outside. -/
  | outside (next : Nat → Course α)

namespace Course

/-- One course after another. -/
def bind {α β : Type} : Course α → (α → Course β) → Course β
  | .done a, k => k a
  | .look id key next, k => .look id key fun found => (next found).bind k
  | .settle id key p next, k => .settle id key p fun q => (next q).bind k
  | .remark id r next, k => .remark id r (next.bind k)
  | .number next, k => .number fun id => (next id).bind k
  | .outside next, k => .outside fun n => (next n).bind k

instance : Monad Course where
  pure := .done
  bind := .bind

end Course

/-- The accesses of a numbered request. -/
instance : Access (ReaderT Nat Course) where
  look key := fun id => .look id key .done
  settle key p := fun id => .settle id key p .done

/-- The warnings of a numbered request. -/
def warn (text : String) : ReaderT Nat Course Unit := fun id => .remark id (.warned text) (.done ())

/-- The build of a numbered request, with its beginning and its end in the log. -/
def watched (build : Course (Except BuildError Procedure)) :
    ReaderT Nat Course (Except BuildError Procedure) := fun id =>
  .remark id .building (build.bind fun result => .remark id (.built result) (.done result))

/-- An **errand**: what a client does, or a build. -/
inductive Errand
  /-- Ends. -/
  | give (result : Except BuildError Procedure)
  /-- Looks a key up, and builds nothing. -/
  | peek (key : String) (next : Option Procedure → Errand)
  /-- Obtains the procedure of a key, which another errand builds if there is none. -/
  | request (key : String) (build : Errand) (next : Except BuildError Procedure → Errand)
  /-- Asks the world outside. -/
  | outside (next : Nat → Errand)

/-- The course of an errand. Each request and each lookup gets a number of its own. -/
def Errand.course : Errand → Course (Except BuildError Procedure)
  | .give result => .done result
  | .peek key next => .number fun id => .look id key fun found => (next found).course
  | .request key build next => .number fun id =>
    .remark id (.asked key) <| ((obtain warn key (watched build.course)).run id).bind fun result =>
      .remark id (.answered result) (next result).course
  | .outside next => .outside fun n => (next n).course

/-- What the clients share. -/
structure Shared where
  /-- The registry. -/
  registry : Registry
  /-- The numbers that are taken. -/
  issued : Nat := 0
  /-- The log, with the number of every entry. -/
  log : List (Nat × Event) := []

/-- The shared state with one more entry. -/
def Shared.tell (s : Shared) (id : Nat) (e : Event) : Shared := { s with log := s.log ++ [(id, e)] }

/-- One step of a course, with the answer of the world outside in case it is asked. -/
def Course.step {α : Type} (answer : Nat) : Course α → Shared → Course α × Shared
  | .done a, s => (.done a, s)
  | .look id key next, s =>
    (next (s.registry.get? key), s.tell id (.looked key (s.registry.get? key)))
  | .settle id key p next, s =>
    let (q, r) := s.registry.settle key p
    (next q, { s with registry := r }.tell id (.settled key p q))
  | .remark id r next, s => (next, s.tell id (.remark r))
  | .number next, s => (next s.issued, { s with issued := s.issued + 1 })
  | .outside next, s => (next answer, s)

/-- The clients and what they share. -/
structure Pool where
  /-- What is left of each client. -/
  clients : List (Course (Except BuildError Procedure))
  /-- What they share. -/
  shared : Shared

/-- A **turn**: whose step is next, and what the world outside says. -/
structure Turn where
  /-- The place of the client. -/
  client : Nat
  /-- The answer of the world outside. -/
  answer : Nat := 0

namespace Pool

/-- The clients of a registry before their first step. -/
def start (r : Registry) (errands : List Errand) : Pool := ⟨errands.map Errand.course, { registry := r }⟩

/-- A turn. A client that is not there takes no step. -/
def step (pool : Pool) (turn : Turn) : Pool :=
  match pool.clients[turn.client]? with
  | none => pool
  | some c =>
    let (c, s) := c.step turn.answer pool.shared
    ⟨pool.clients.set turn.client c, s⟩

/-- A **schedule** played. -/
def run (pool : Pool) (turns : List Turn) : Pool := turns.foldl step pool

theorem run_append (pool : Pool) (turns later : List Turn) :
    pool.run (turns ++ later) = (pool.run turns).run later := List.foldl_append

/-- Whatever every turn keeps, every schedule keeps. -/
theorem run_induction {P : Pool → Prop} (hstep : ∀ pool turn, P pool → P (pool.step turn)) (pool : Pool)
    (turns : List Turn) (h : P pool) : P (pool.run turns) := by
  induction turns generalizing pool with
  | nil => exact h
  | cons turn turns ih => exact ih _ (hstep pool turn h)

/-- A turn of a client that is there. -/
theorem getElem?_step {pool : Pool} {j answer : Nat} {c : Course (Except BuildError Procedure)}
    (hc : pool.clients[j]? = some c) :
    (pool.step ⟨j, answer⟩).clients[j]? = some (c.step answer pool.shared).1 := by
  obtain ⟨hlt, rfl⟩ := List.getElem?_eq_some_iff.mp hc
  simp [step, hlt]

/-- A client comes to its end by turns of its own. -/
def Ends (pool : Pool) (j answer : Nat) : Prop :=
  ∃ n result, (pool.run (List.replicate n ⟨j, answer⟩)).clients[j]? = some (.done result)

/-- One turn before the others. -/
theorem Ends.step {pool : Pool} {j answer : Nat} (h : (pool.step ⟨j, answer⟩).Ends j answer) :
    pool.Ends j answer :=
  let ⟨n, result, hn⟩ := h
  ⟨n + 1, result, hn⟩

/-- **No step waits for another client**: its own turns bring a client to its end, whatever the others
have done before, and whatever the world outside answers. -/
theorem ends {pool : Pool} {j : Nat} {c : Course (Except BuildError Procedure)}
    (hc : pool.clients[j]? = some c) (answer : Nat) : pool.Ends j answer := by
  induction c generalizing pool with
  | done result => exact ⟨0, result, hc⟩
  | look id key next ih => exact .step (ih _ (getElem?_step hc))
  | settle id key p next ih => exact .step (ih _ (getElem?_step hc))
  | remark id r next ih => exact .step (ih (getElem?_step hc))
  | number next ih => exact .step (ih _ (getElem?_step hc))
  | outside next ih => exact .step (ih _ (getElem?_step hc))

end Pool

end Registry

end Stackwright
