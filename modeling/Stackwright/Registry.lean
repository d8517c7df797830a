import Stackwright.Builder

/-! # The registry of procedures

Finished procedures by **key**. A key is bound once: the first procedure published for it stays. A
request looks the key up, builds only if it is absent, and then takes whatever is bound, which another
request may have published meanwhile. -/

namespace Stackwright

/-- The **registry**: keys and procedures in the order they were bound. -/
structure Registry where
  /-- The bindings. -/
  bindings : List (String × Procedure) := []

namespace Registry

/-- The procedure of a key. -/
def get? (r : Registry) (key : String) : Option Procedure := r.bindings.lookup key

/-- The number of bound keys. -/
def size (r : Registry) : Nat := r.bindings.length

/-- Whether no key is bound. -/
def isEmpty (r : Registry) : Bool := r.bindings.isEmpty

/-- Binds a key that is absent. -/
def publish (r : Registry) (key : String) (p : Procedure) : Registry :=
  match r.get? key with
  | some _ => r
  | none => ⟨r.bindings ++ [(key, p)]⟩

/-- The text of a registry in diagnostics. -/
def debug (r : Registry) : String := "ProcedureCache \x7b len: " ++ toString r.size ++ " \x7d"

/-- The message about a build that failed. -/
def failureMessage (key : String) (e : BuildError) : String :=
  "failed to build procedure for `" ++ key ++ "`: " ++ e.message

/-- A procedure after publishing is the one that was bound before, or else the published one. -/
theorem get?_publish_self (r : Registry) (key : String) (p : Procedure) :
    (r.publish key p).get? key = some ((r.get? key).getD p) := by
  unfold publish
  cases h : r.get? key with
  | some q => simp [h]
  | none =>
    have h : r.bindings.lookup key = none := h
    simp [get?, List.lookup_append, h]

/-- Publishing for one key leaves the others alone. -/
theorem get?_publish_of_ne (r : Registry) {key other : String} (p : Procedure) (h : other ≠ key) :
    (r.publish key p).get? other = r.get? other := by
  unfold publish
  cases r.get? key with
  | some q => rfl
  | none =>
    have h : (other == key) = false := by simpa using h
    simp [get?, List.lookup_append, List.lookup_cons, h]

/-- A bound key stays bound to its procedure. -/
theorem get?_publish_of_get? {r : Registry} {key other : String} {p q : Procedure}
    (h : r.get? other = some q) : (r.publish key p).get? other = some q := by
  by_cases hk : other = key
  · subst hk; rw [get?_publish_self, h]; rfl
  · rw [get?_publish_of_ne r p hk, h]

/-- **Settles** a key on its first procedure: binds it if it is absent, and takes whatever is bound. -/
def settle (r : Registry) (key : String) (p : Procedure) : Procedure × Registry :=
  (((r.publish key p).get? key).getD p, r.publish key p)

/-- The **accesses** to a registry that may be shared. Each of them happens at once, and anything may
happen between two of them. -/
class Access (m : Type → Type) where
  /-- The procedure of a key now. -/
  look (key : String) : m (Option Procedure)
  /-- Binds a key unless it is bound, and takes what is bound then. -/
  settle (key : String) (p : Procedure) : m Procedure

/-- A registry that is part of the state. -/
instance {m : Type → Type} [Monad m] [MonadStateOf Registry m] : Access m where
  look key := return (← getThe Registry).get? key
  settle key p := modifyGetThe Registry (·.settle key p)

/-- The procedure of a key, **built on demand**. The build runs between the two accesses and may use the
registry as well. A failed build is reported and not remembered. -/
def obtain {m : Type → Type} [Monad m] [Access m] (warn : String → m Unit)
    (key : String) (build : m (Except BuildError Procedure)) : m (Except BuildError Procedure) := do
  match ← Access.look key with
  | some p => pure (.ok p)
  | none =>
    match ← build with
    | .error e =>
      warn (failureMessage key e)
      pure (.error e)
    | .ok p => return .ok (← Access.settle key p)

end Registry

end Stackwright
