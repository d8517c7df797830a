import Stackwright.Proofs.Emission.Silent
import Stackwright.Proofs.Tracing.Pairing

/-! # Sessions in tandem

The same emission call, made under two tracers on two related sessions, is accepted by both or refused by
both, and leaves them related. A **tandem** fixes the two tracers, how the sessions are related under a
pairing of their numbers, and which transcript texts belong together. What is closed under the few ways in
which straight-line calls change a session is kept by every such call, so that each relation needs one case
for each of these ways, and not one for each call.

* **`Tandem.InStep T g e e' Q`** — two calls agree, and their answers are related by `Q`.
* **`Tandem.Keeps T g e e'`** — the same, when nothing is said about the answers.
* **`Tandem.Straight T`** — the relation is closed under what straight-line calls do. -/

namespace Stackwright

/-- Two **tracers**, and what belongs together when the same calls are made under both. -/
structure Tandem where
  /-- The tracer of the first session. -/
  left : Tracer
  /-- The tracer of the second session. -/
  right : Tracer
  /-- The transcript texts that belong together. -/
  texts : Pairing → String → String → Prop
  /-- The sessions that belong together. -/
  sessions : Pairing → Session → Session → Prop

/-! ## Refusals that name no label -/

/-- A conversion is never refused for a label. -/
theorem Conversion.label?_of_between {source target : Ty} {isAddress : Bool} {e : BuildError}
    (h : Conversion.between source target isAddress = .error e) : e.label? = none := by
  unfold between toValue toReference at h
  grind [BuildError.label?]

theorem Mnemonic.label?_of_elementWidth {t : Ty} {k : ScalarKind → String} {e : BuildError}
    (h : Mnemonic.elementWidth t k = .error e) : e.label? = none := by
  unfold elementWidth at h
  grind [BuildError.label?]

theorem Mnemonic.label?_of_loadItem {t : Ty} {e : BuildError}
    (h : Mnemonic.loadItem t = .error e) : e.label? = none := by
  cases hw : Mnemonic.elementWidth t width with
  | ok x =>
    rw [loadItem, hw] at h
    cases h
  | error r =>
    rw [loadItem, hw] at h
    cases h
    exact label?_of_elementWidth hw

theorem Mnemonic.label?_of_storeItem {t : Ty} {e : BuildError}
    (h : Mnemonic.storeItem t = .error e) : e.label? = none := by
  cases hw : Mnemonic.elementWidth t storedWidth with
  | ok x =>
    rw [storeItem, hw] at h
    cases h
  | error r =>
    rw [storeItem, hw] at h
    cases h
    exact label?_of_elementWidth hw

namespace Tandem

variable {α β γ δ : Type}

/-- Two runs **agree**: both are accepted with related answers, or both are refused for the same reason, and
the sessions belong together either way. -/
inductive Agree (T : Tandem) (g : Pairing) (Q : Pairing → α → β → Prop) :
    EStateM.Result BuildError Session α → EStateM.Result BuildError Session β → Prop
  /-- Both are accepted. -/
  | ok {g' : Pairing} {a : α} {b : β} {s s' : Session} (hle : g ≤ g') (hs : T.sessions g' s s')
      (hq : Q g' a b) : Agree T g Q (.ok a s) (.ok b s')
  /-- Both are refused. -/
  | error {g' : Pairing} {e e' : BuildError} {s s' : Session} (hle : g ≤ g')
      (hs : T.sessions g' s s') (he : e.Paired g' e') : Agree T g Q (.error e s) (.error e' s')

variable {T : Tandem} {g g' : Pairing} {e : Emit α} {e' : Emit β} {f : α → Emit γ} {f' : β → Emit δ}
  {Q Q' : Pairing → α → β → Prop} {R : Pairing → γ → δ → Prop} {s s' : Session}

/-- Two calls are **in step**: made on sessions that belong together, they agree. -/
def InStep (T : Tandem) (g : Pairing) (e : Emit α) (e' : Emit β) (Q : Pairing → α → β → Prop) :
    Prop :=
  ∀ g', g ≤ g' → ∀ s s', T.sessions g' s s' →
    T.Agree g' Q ((e.run T.left).run s) ((e'.run T.right).run s')

/-- Two calls are in step, whatever they answer. -/
def Keeps (T : Tandem) (g : Pairing) (e : Emit α) (e' : Emit β) : Prop :=
  T.InStep g e e' fun _ _ _ => True

/-! ## Composition -/

/-- Two accepted runs agree. -/
theorem Agree.of_ok {a : α} {b : β} {s₁ s₁' : Session} (h : (e.run T.left).run s = .ok a s₁)
    (h' : (e'.run T.right).run s' = .ok b s₁') (hle : g ≤ g') (hs : T.sessions g' s₁ s₁')
    (hq : Q g' a b) : T.Agree g Q ((e.run T.left).run s) ((e'.run T.right).run s') := by
  rw [h, h']
  exact .ok hle hs hq

/-- What is known of a pairing is known of each that knows more. -/
theorem InStep.later (h : T.InStep g e e' Q) (hle : g ≤ g') : T.InStep g' e e' Q :=
  fun g₁ hle₁ => h g₁ (hle.trans hle₁)

theorem Keeps.later (h : T.Keeps g e e') (hle : g ≤ g') : T.Keeps g' e e' := InStep.later h hle

theorem InStep.mono (h : T.InStep g e e' Q) (hq : ∀ g', g ≤ g' → ∀ a b, Q g' a b → Q' g' a b) :
    T.InStep g e e' Q' := by
  intro g₁ hle₁ s s' hs
  generalize (e.run T.left).run s = r, (e'.run T.right).run s' = r', h g₁ hle₁ s s' hs = hagree
  cases hagree with
  | ok hle hs hq' => exact .ok hle hs (hq _ (hle₁.trans hle) _ _ hq')
  | error hle hs he => exact .error hle hs he

theorem InStep.keeps (h : T.InStep g e e' Q) : T.Keeps g e e' := h.mono fun _ _ _ _ _ => trivial

theorem InStep.bind (h : T.InStep g e e' Q)
    (hf : ∀ g', g ≤ g' → ∀ a b, Q g' a b → T.InStep g' (f a) (f' b) R) :
    T.InStep g (e >>= f) (e' >>= f') R := by
  intro g₁ hle₁ s s' hs
  rw [Emit.run_bind, Emit.run_bind]
  generalize (e.run T.left).run s = r, (e'.run T.right).run s' = r', h g₁ hle₁ s s' hs = hagree
  cases hagree with
  | error hle hs he => exact .error hle hs he
  | @ok g₂ a b s₁ s₁' hle hs hq =>
    dsimp only
    generalize ((f a).run T.left).run s₁ = r, ((f' b).run T.right).run s₁' = r',
      hf g₂ (hle₁.trans hle) a b hq g₂ le_rfl s₁ s₁' hs = hagree'
    cases hagree' with
    | ok hle' hs' hq' => exact .ok (hle.trans hle') hs' hq'
    | error hle' hs' he' => exact .error (hle.trans hle') hs' he'

/-- Where nothing is known of the answers, nothing is needed of them. -/
theorem Keeps.seq (h : T.Keeps g e e') (hf : ∀ a b, T.InStep g (f a) (f' b) R) :
    T.InStep g (e >>= f) (e' >>= f') R :=
  InStep.bind h fun _ hle a b _ => (hf a b).later hle

theorem inStep_pure {a : α} {b : β} (h : ∀ g', g ≤ g' → Q g' a b) :
    T.InStep g (pure a) (pure b) Q :=
  fun g' hle _ _ hs => .ok le_rfl hs (h g' hle)

theorem keeps_pure (a : α) (b : β) : T.Keeps g (pure a) (pure b) := inStep_pure fun _ _ => trivial

theorem inStep_refuse {r r' : BuildError} (h : r.Paired g r') :
    T.InStep g (Emit.refuse r : Emit α) (Emit.refuse r' : Emit β) Q :=
  fun _ hle _ _ hs => .error le_rfl hs (h.mono hle)

theorem inStep_get : T.InStep g (get : Emit Session) (get : Emit Session) T.sessions :=
  fun _ _ _ _ hs => .ok le_rfl hs hs

/-- The same outcome of a check that names no label. -/
theorem inStep_ofExcept {r : Except BuildError α} (h : ∀ e, r = .error e → e.label? = none) :
    T.InStep g (Emit.ofExcept r) (Emit.ofExcept r) fun _ a b => b = a := by
  cases r with
  | ok a => exact inStep_pure fun _ _ => rfl
  | error e => exact inStep_refuse (.other (h e rfl))

theorem InStep.map {k : α → γ} {k' : β → δ} (h : T.InStep g e e' Q)
    (hk : ∀ g' a b, Q g' a b → R g' (k a) (k' b)) : T.InStep g (k <$> e) (k' <$> e') R := by
  intro g₁ hle₁ s s' hs
  rw [map_eq_pure_bind, map_eq_pure_bind, Emit.run_bind, Emit.run_bind]
  generalize (e.run T.left).run s = r, (e'.run T.right).run s' = r', h g₁ hle₁ s s' hs = hagree
  cases hagree with
  | ok hle hs hq => exact .ok hle hs (hk _ _ _ hq)
  | error hle hs he => exact .error hle hs he

/-! ## Checks -/

theorem keeps_requireCount (method : String) (declared supplied : Nat) :
    T.Keeps g (Emit.requireCount method declared supplied)
      (Emit.requireCount method declared supplied) := by
  unfold Emit.requireCount
  split
  · exact keeps_pure _ _
  · exact inStep_refuse (.other rfl)

/-- An accessor is there for both or for neither. -/
theorem inStep_accessor (m : Member) (which : Accessor) (f : Option Method) :
    T.InStep g (Emit.accessor m which f) (Emit.accessor m which f) fun _ f f' => f' = f := by
  cases f with
  | some f => exact inStep_pure fun _ _ => rfl
  | none => exact inStep_refuse (.other rfl)

theorem inStep_itemTypeOf {o o' : Operand} (h : o.Paired g o') :
    T.InStep g (Emit.itemTypeOf o) (Emit.itemTypeOf o') fun _ t t' => t' = t := by
  unfold Emit.itemTypeOf
  rw [h.type]
  split
  · exact inStep_pure fun _ _ => rfl
  · exact inStep_refuse (.other rfl)

/-! ## Locals -/

/-- Locals that are declared together belong together, where declaring them and writing a line keeps
sessions together. -/
theorem inStep_newLocal
    (hd : ∀ {g s s'}, T.sessions g s s' → ∀ t name, ∃ g', g ≤ g' ∧
      g'.slots s.locals.size s'.locals.size ∧ T.sessions g' (s.declared t name) (s'.declared t name))
    (hw : ∀ {g s s'}, T.sessions g s s' → ∀ x,
      T.sessions g (s.written T.left x) (s'.written T.right x)) (t : Ty) (name : String) :
    T.InStep g (Emit.newLocal t name) (Emit.newLocal t name) Local.Paired := by
  intro g₁ _ s s' hs
  obtain ⟨g', hle, hslots, hs'⟩ := hd hs t name
  exact .of_ok (Emit.run_newLocal _ s t name) (Emit.run_newLocal _ s' t name) hle (hw hs' _)
    ⟨rfl, hslots⟩

/-- The locals for the operands of formatted text belong together, where both sessions have one or neither
does. -/
theorem inStep_formatArray
    (hnew : ∀ g, T.InStep g (Emit.newLocal (.array .object) "stringFormatArray")
      (Emit.newLocal (.array .object) "stringFormatArray") Local.Paired)
    (hget : ∀ {g s s'}, T.sessions g s s' →
      Option.Rel (Local.Paired g) s.formatArray s'.formatArray)
    (hset : ∀ {g s s'}, T.sessions g s s' → ∀ {l l' : Local}, l.Paired g l' →
      T.sessions g { s with formatArray := some l } { s' with formatArray := some l' }) (g : Pairing) :
    T.InStep g Emit.formatArray Emit.formatArray Local.Paired := by
  refine inStep_get.bind fun g₁ _ s s' hs => ?_
  generalize s.formatArray = l, s'.formatArray = l', hget hs = hrel
  cases hrel with
  | some hl => exact inStep_pure fun _ hle => hl.mono hle
  | none =>
    refine (hnew g₁).bind fun g₂ _ l l' hl => Keeps.seq ?_ fun _ _ =>
      inStep_pure fun _ hle => hl.mono hle
    intro g₃ hle s₁ s₁' hs₁
    exact .of_ok (Emit.run_modify _ s₁ _) (Emit.run_modify _ s₁' _) le_rfl (hset hs₁ (hl.mono hle)) trivial

/-! ## Straight-line calls -/

/-- A tandem whose sessions stay together in whatever a **straight-line** call does. -/
structure Straight (T : Tandem) : Prop where
  /-- The procedures take the same arguments. -/
  signature : ∀ {g s s'}, T.sessions g s s' → s'.signature = s.signature
  /-- An operation is recorded. -/
  recorded : ∀ {g s s'}, T.sessions g s s' → ∀ {o o' : Op}, o.Paired g o' →
    T.sessions g (s.recorded [o]) (s'.recorded [o'])
  /-- A return is recorded. -/
  returned : ∀ {g s s'}, T.sessions g s s' →
    T.sessions g { s with code := s.code.push .ret } { s' with code := s'.code.push .ret }
  /-- A text belongs to itself. -/
  same : ∀ g x, T.texts g x x
  /-- Texts stay together. -/
  later : ∀ {g g' x x'}, g ≤ g' → T.texts g x x' → T.texts g' x x'
  /-- Locals that belong together have names that do. -/
  named : ∀ {g s s'}, T.sessions g s s' → ∀ {l l' : Local}, l.Paired g l' →
    ∀ x, T.texts g (x ++ s.nameOf l) (x ++ s'.nameOf l')
  /-- A line is written. -/
  written : ∀ {g s s'}, T.sessions g s s' → ∀ {x x'}, T.texts g x x' →
    T.sessions g (s.written T.left x) (s'.written T.right x')
  /-- A value is shown. -/
  shown : ∀ g t, T.Keeps g (Emit.probe t) (Emit.probe t)
  /-- A local is declared. -/
  declared : ∀ {g s s'}, T.sessions g s s' → ∀ t name, ∃ g', g ≤ g' ∧
    g'.slots s.locals.size s'.locals.size ∧ T.sessions g' (s.declared t name) (s'.declared t name)
  /-- The local for the operands of formatted text is looked up. -/
  formatted : ∀ g, T.InStep g Emit.formatArray Emit.formatArray Local.Paired

namespace Straight

variable (hT : T.Straight)

include hT

/-! ### Recording -/

theorem line {x x' : String} (h : T.texts g x x') : T.Keeps g (Emit.line x) (Emit.line x') :=
  fun _ hle s s' hs =>
    .of_ok (Emit.run_line _ s x) (Emit.run_line _ s' x') le_rfl (hT.written hs (hT.later hle h)) trivial

theorem note (x : String) : T.Keeps g (Emit.note x) (Emit.note x) := hT.line (hT.same _ _)

theorem op {o o' : Op} (h : o.Paired g o') : T.Keeps g (Emit.op o) (Emit.op o') :=
  fun _ hle s s' hs =>
    .of_ok (Emit.run_op _ s o) (Emit.run_op _ s' o') le_rfl (hT.recorded hs (h.mono hle)) trivial

/-- An operation that uses no local. -/
theorem traced (x : String) (o : Op) (h : o.isPlain) :
    T.Keeps g (Emit.traced x o) (Emit.traced x o) :=
  (hT.note x).seq fun _ _ => hT.op (.other h)

theorem ret : T.Keeps g Emit.ret Emit.ret :=
  (hT.note _).seq fun _ _ _ _ s s' hs =>
    .of_ok (Emit.run_record _ s _) (Emit.run_record _ s' _) le_rfl (hT.returned hs) trivial

/-! ### Slots and constants -/

theorem arg (i : Nat) : T.InStep g (Emit.arg i) (Emit.arg i) fun _ a a' => a' = a := by
  refine inStep_get.bind fun g' _ s s' hs => ?_
  rw [hT.signature hs]
  dsimp only
  split
  · exact inStep_pure fun _ _ => rfl
  · exact inStep_refuse (.other rfl)

theorem loadArg (a : Argument) : T.Keeps g (Emit.loadArg a) (Emit.loadArg a) := by
  refine (hT.arg a.index).bind fun g' _ b b' hb => ?_
  rw [hb]
  exact hT.traced _ _ rfl

theorem storeArg (a : Argument) : T.Keeps g (Emit.storeArg a) (Emit.storeArg a) := by
  refine (hT.arg a.index).bind fun g' _ b b' hb => ?_
  rw [hb]
  exact hT.traced _ _ rfl

theorem loadArgAddress (a : Argument) :
    T.Keeps g (Emit.loadArgAddress a) (Emit.loadArgAddress a) := by
  refine (hT.arg a.index).bind fun g' _ b b' hb => ?_
  rw [hb]
  exact hT.traced _ _ rfl

theorem newLocal (t : Ty) (name : String) :
    T.InStep g (Emit.newLocal t name) (Emit.newLocal t name) Local.Paired :=
  inStep_newLocal hT.declared (fun hs _ => hT.written hs (hT.same _ _)) t name

/-- The name of a local behind some text, in a line. -/
theorem noteName {l l' : Local} (h : l.Paired g l') (x : String) {k : Emit α} {k' : Emit β}
    (hk : T.InStep g k k' Q) :
    T.InStep g (do Emit.note (x ++ (← Emit.nameOf l)); k) (do Emit.note (x ++ (← Emit.nameOf l')); k')
      Q := by
  refine InStep.bind (Q := fun g n n' => ∀ x, T.texts g (x ++ n) (x ++ n')) ?_
    fun g' hle n n' hn => ?_
  · intro g' hle s s' hs
    exact .of_ok (Emit.run_nameOf _ s l) (Emit.run_nameOf _ s' l') le_rfl hs
      (hT.named hs (h.mono hle))
  · have htext : T.texts g' ("    " ++ (x ++ n)) ("    " ++ (x ++ n')) := by
      rw [← String.append_assoc, ← String.append_assoc]
      exact hn _
    exact (hT.line htext).seq fun _ _ => hk.later hle

theorem loadLocal {l l' : Local} (h : l.Paired g l') :
    T.Keeps g (Emit.loadLocal l) (Emit.loadLocal l') := by
  refine hT.noteName h _ ((hT.op (.loadLocal h.2)).seq fun _ _ => ?_)
  rw [h.1]
  exact hT.shown g _

theorem storeLocal {l l' : Local} (h : l.Paired g l') :
    T.Keeps g (Emit.storeLocal l) (Emit.storeLocal l') := by
  refine hT.noteName h _ ?_
  rw [h.1]
  exact (hT.shown g _).seq fun _ _ => hT.op (.storeLocal _ h.2)

theorem loadLocalAddress {l l' : Local} (h : l.Paired g l') :
    T.Keeps g (Emit.loadLocalAddress l) (Emit.loadLocalAddress l') := by
  refine hT.noteName h _ ((hT.op (.addressLocal h.2)).seq fun _ _ => ?_)
  rw [h.1]
  exact hT.shown g _

theorem loadText (x : String) : T.Keeps g (Emit.loadText x) (Emit.loadText x) := hT.traced _ _ rfl

theorem loadNull : T.Keeps g Emit.loadNull Emit.loadNull := hT.traced _ _ rfl

theorem loadToken (t : Ty) : T.Keeps g (Emit.loadToken t) (Emit.loadToken t) := hT.traced _ _ rfl

theorem call (m : Method) : T.Keeps g (Emit.call m) (Emit.call m) := hT.traced _ _ rfl

theorem loadInt (n : Int) : T.Keeps g (Emit.loadInt n) (Emit.loadInt n) := hT.traced _ _ rfl

theorem loadScalar (x : Scalar) : T.Keeps g (Emit.loadScalar x) (Emit.loadScalar x) := by
  unfold Emit.loadScalar
  split
  case h_2 => exact inStep_refuse (.other rfl)
  case h_6 => exact hT.loadInt _
  all_goals exact hT.traced _ _ rfl

theorem loadConstant (c : Constant) : T.Keeps g (Emit.loadConstant c) (Emit.loadConstant c) := by
  cases c with
  | null => exact hT.loadNull
  | text x => exact hT.loadText x
  | char c => exact inStep_refuse (.other rfl)
  | scalar x => exact hT.loadScalar x
  | handle t => exact (hT.loadToken t).seq fun _ _ => hT.call _
  | enumeration t raw =>
    refine (hT.note _).seq fun _ _ => ?_
    split
    · exact inStep_refuse (.other rfl)
    · split
      · exact hT.loadScalar _
      · exact inStep_refuse (.other rfl)

theorem load {o o' : Operand} (h : o.Paired g o') : T.Keeps g (Emit.load o) (Emit.load o') := by
  cases h with
  | constant c => exact hT.loadConstant c
  | argument a => exact hT.loadArg a
  | «variable» h => exact hT.loadLocal h

theorem store {o o' : Operand} (h : o.Paired g o') : T.Keeps g (Emit.store o) (Emit.store o') := by
  cases h with
  | constant c => exact inStep_refuse (.other rfl)
  | argument a => exact hT.storeArg a
  | «variable» h => exact hT.storeLocal h

theorem loadByAddress {o o' : Operand} (h : o.Paired g o') :
    T.Keeps g (Emit.loadByAddress o) (Emit.loadByAddress o') := by
  cases h with
  | constant c => exact hT.loadConstant c
  | argument a =>
    simp only [Emit.loadByAddress]
    split
    · exact hT.loadArgAddress a
    · exact hT.loadArg a
  | «variable» h =>
    simp only [Emit.loadByAddress, h.1]
    split
    · exact hT.loadLocalAddress h
    · exact hT.loadLocal h

theorem increment {o o' : Operand} (h : o.Paired g o') :
    T.Keeps g (Emit.increment o) (Emit.increment o') :=
  (hT.load h).seq fun _ _ => (hT.loadInt 1).seq fun _ _ => (hT.traced _ _ rfl).seq fun _ _ =>
    hT.store h

theorem decrement {o o' : Operand} (h : o.Paired g o') :
    T.Keeps g (Emit.decrement o) (Emit.decrement o') :=
  (hT.load h).seq fun _ _ => (hT.loadInt 1).seq fun _ _ => (hT.traced _ _ rfl).seq fun _ _ =>
    hT.store h

theorem loadZero (t : Ty) : T.Keeps g (Emit.loadZero t) (Emit.loadZero t) := by
  unfold Emit.loadZero
  split
  case h_5 => exact hT.loadInt 0
  case h_6 =>
    split
    · refine (hT.newLocal t _).bind fun g' _ l l' hl => ?_
      exact (hT.loadByAddress (.variable hl)).seq fun _ _ => (hT.traced _ _ rfl).seq fun _ _ =>
        hT.load (.variable hl)
    · exact hT.loadNull
  all_goals exact hT.loadScalar _

/-! ### Objects, calls and conversions -/

theorem loadThrough (t : Ty) : T.Keeps g (Emit.loadThrough t) (Emit.loadThrough t) :=
  hT.traced _ _ rfl

theorem storeThrough (t : Ty) : T.Keeps g (Emit.storeThrough t) (Emit.storeThrough t) :=
  hT.traced _ _ rfl

theorem applyConversion (c : Conversion) :
    T.Keeps g (Emit.applyConversion c) (Emit.applyConversion c) := by
  cases c with
  | identity => exact keeps_pure _ _
  | upcast => exact keeps_pure _ _
  | numeric k => exact hT.traced _ _ rfl
  | openBox t readThrough =>
    refine (hT.traced _ _ rfl).seq fun _ _ => ?_
    split
    · exact hT.loadThrough t
    · exact keeps_pure _ _
  | box t loadFirst =>
    cases loadFirst with
    | true => exact (hT.loadThrough t).seq fun _ _ => hT.traced _ _ rfl
    | false => exact hT.traced _ _ rfl
  | cast t => exact hT.traced _ _ rfl

theorem convert (source target : Ty) (isAddress : Bool) :
    T.Keeps g (Emit.convert source target isAddress) (Emit.convert source target isAddress) := by
  refine (inStep_ofExcept fun e he => Conversion.label?_of_between he).bind fun g' _ c c' hc => ?_
  rw [hc]
  exact hT.applyConversion c

theorem convertTop (source target : Ty) :
    T.Keeps g (Emit.convertTop source target) (Emit.convertTop source target) :=
  hT.convert source target false

theorem assign {l l' : Local} {o o' : Operand} (hl : l.Paired g l') (ho : o.Paired g o') :
    T.Keeps g (Emit.assign l o) (Emit.assign l' o') := by
  refine (hT.load ho).seq fun _ _ => ?_
  rw [ho.type, hl.1]
  exact (hT.convertTop _ _).seq fun _ _ => hT.storeLocal hl

theorem newLocalWith (t : Ty) (name : String) {o o' : Operand} (ho : o.Paired g o') :
    T.InStep g (Emit.newLocalWith t name o) (Emit.newLocalWith t name o') Local.Paired := by
  refine (hT.newLocal t name).bind fun g' hle l l' hl => ?_
  exact (hT.assign hl (ho.mono hle)).seq fun _ _ => inStep_pure fun _ hle' => hl.mono hle'

theorem loadParameter {o o' : Operand} (h : o.Paired g o') (t : Ty) :
    T.Keeps g (Emit.loadParameter o t) (Emit.loadParameter o' t) := by
  refine (hT.load h).seq fun _ _ => ?_
  rw [h.isNull, h.type]
  split
  · exact keeps_pure _ _
  · exact hT.convertTop _ _

theorem loadParameters {os os' : List Operand} (h : List.Forall₂ (Operand.Paired g) os os')
    (ts : List Ty) : T.Keeps g (Emit.loadParameters os ts) (Emit.loadParameters os' ts) := by
  induction h generalizing ts with
  | nil => exact keeps_pure _ _
  | cons ho _ ih =>
    cases ts with
    | nil => exact keeps_pure _ _
    | cons t ts => exact (hT.loadParameter ho t).seq fun _ _ => ih ts

theorem loadReceiver (m : Method) {o o' : Operand} (h : o.Paired g o') :
    T.Keeps g (Emit.loadReceiver m o) (Emit.loadReceiver m o') := by
  refine (hT.loadByAddress h).seq fun _ _ => ?_
  rw [h.type]
  exact hT.convert _ _ true

theorem callWith {r r' : Option Operand} {os os' : List Operand} (m : Method)
    (hr : Option.Rel (Operand.Paired g) r r') (h : List.Forall₂ (Operand.Paired g) os os') :
    T.Keeps g (Emit.callWith r m os) (Emit.callWith r' m os') := by
  have hrest : T.Keeps g (do Emit.loadParameters os m.params; Emit.call m)
      (do Emit.loadParameters os' m.params; Emit.call m) :=
    (hT.loadParameters h m.params).seq fun _ _ => hT.call m
  unfold Emit.callWith
  rw [← h.length_eq]
  refine (keeps_requireCount _ _ _).seq fun _ _ => ?_
  cases hr with
  | none => exact hrest
  | some ho =>
    dsimp only
    split
    · exact hrest
    · exact (hT.loadReceiver m ho).seq fun _ _ => hrest

theorem instantiate (c : Constructor) {os os' : List Operand}
    (h : List.Forall₂ (Operand.Paired g) os os') :
    T.Keeps g (Emit.instantiate c os) (Emit.instantiate c os') := by
  unfold Emit.instantiate
  rw [← h.length_eq]
  exact (keeps_requireCount _ _ _).seq fun _ _ => (hT.loadParameters h c.params).seq fun _ _ =>
    hT.traced _ _ rfl

theorem getField (f : Field) : T.Keeps g (Emit.getField f) (Emit.getField f) := by
  unfold Emit.getField
  split <;> exact hT.traced _ _ rfl

theorem putField (f : Field) : T.Keeps g (Emit.putField f) (Emit.putField f) := by
  unfold Emit.putField
  split <;> exact hT.traced _ _ rfl

theorem getMember (m : Member) :
    T.InStep g (Emit.getMember m) (Emit.getMember m) fun _ t t' => t' = t := by
  have hshow : ∀ t : Ty, T.InStep g (do Emit.probe t; pure t) (do Emit.probe t; pure t)
      fun _ t t' => t' = t := fun t =>
    (hT.shown g t).seq fun _ _ => inStep_pure fun _ _ => rfl
  cases m with
  | field f => exact (hT.getField f).seq fun _ _ => hshow _
  | property p =>
    refine (inStep_accessor (.property p) .getter p.getter).bind fun g' hle f f' hf => ?_
    rw [hf]
    exact (hT.call f).seq fun _ _ => (hshow p.type).later hle
  | method f =>
    unfold Emit.getMember
    dsimp only
    split
    · exact (hT.call f).seq fun _ _ => hshow _
    · exact inStep_refuse (.other rfl)

theorem putMember (m : Member) : T.Keeps g (Emit.putMember m) (Emit.putMember m) := by
  cases m with
  | field f => exact hT.putField f
  | property p =>
    refine (inStep_accessor (.property p) .setter p.setter).bind fun g' _ f f' hf => ?_
    rw [hf]
    exact hT.call f
  | method f => exact inStep_refuse (.other rfl)

/-! ### Arrays -/

theorem makeArray (element : Ty) {o o' : Operand} (h : o.Paired g o') :
    T.Keeps g (Emit.makeArray element o) (Emit.makeArray element o') :=
  (hT.load h).seq fun _ _ => hT.traced _ _ rfl

theorem loadLength : T.Keeps g Emit.loadLength Emit.loadLength :=
  (hT.traced _ _ rfl).seq fun _ _ => hT.traced _ _ rfl

theorem loadItem (element : Ty) : T.Keeps g (Emit.loadItem element) (Emit.loadItem element) := by
  refine (inStep_ofExcept fun e he => Mnemonic.label?_of_loadItem he).bind fun g' _ x x' hx => ?_
  rw [hx]
  exact (hT.traced _ _ rfl).seq fun _ _ => hT.shown g' element

theorem loadItemAddress (element : Ty) :
    T.Keeps g (Emit.loadItemAddress element) (Emit.loadItemAddress element) :=
  (hT.traced _ _ rfl).seq fun _ _ => hT.shown g element

theorem storeItem (element : Ty) : T.Keeps g (Emit.storeItem element) (Emit.storeItem element) := by
  refine (inStep_ofExcept fun e he => Mnemonic.label?_of_storeItem he).bind fun g' _ x x' hx => ?_
  rw [hx]
  exact (hT.note _).seq fun _ _ => (hT.shown g' element).seq fun _ _ => hT.op (.other rfl)

theorem loadItemOf {a a' i i' : Operand} (ha : a.Paired g a') (hi : i.Paired g i') :
    T.Keeps g (Emit.loadItemOf a i) (Emit.loadItemOf a' i') := by
  refine (inStep_itemTypeOf ha).bind fun g' hle t t' ht => ?_
  rw [ht]
  refine (hT.load (ha.mono hle)).seq fun _ _ => (hT.load (hi.mono hle)).seq fun _ _ => ?_
  split
  · exact (hT.loadItemAddress t).seq fun _ _ => hT.loadThrough t
  · exact hT.loadItem t

theorem storeTypedItem {a a' i i' v v' : Operand} (ha : a.Paired g a') (hi : i.Paired g i')
    (hv : v.Paired g v') :
    T.Keeps g (Emit.storeTypedItem a i v) (Emit.storeTypedItem a' i' v') := by
  refine (inStep_itemTypeOf ha).bind fun g' hle t t' ht => ?_
  rw [ht]
  have hvalue := hv.mono hle
  refine (hT.load (ha.mono hle)).seq fun _ _ => (hT.load (hi.mono hle)).seq fun _ _ => ?_
  rw [hvalue.type]
  have hrest : ∀ {last : Emit Unit}, T.Keeps g' last last →
      T.Keeps g' (do Emit.load v; Emit.convertTop v.type t; last)
        (do Emit.load v'; Emit.convertTop v.type t; last) := fun hlast =>
    (hT.load hvalue).seq fun _ _ => (hT.convertTop _ _).seq fun _ _ => hlast
  dsimp only
  split
  · exact (hT.loadItemAddress t).seq fun _ _ => hrest (hT.storeThrough t)
  · exact hrest (hT.storeItem t)

theorem storeItemOf {a a' i i' v v' : Operand} (ha : a.Paired g a') (hi : i.Paired g i')
    (hv : v.Paired g v') :
    T.Keeps g (Emit.storeItemOf a i v) (Emit.storeItemOf a' i' v') := by
  unfold Emit.storeItemOf
  rw [ha.type]
  split
  · exact hT.callWith _ (.some ha) (.cons hv (.cons hi .nil))
  · exact hT.storeTypedItem ha hi hv

/-! ### Text -/

theorem toText (t : Ty) : T.Keeps g (Emit.toText t) (Emit.toText t) := by
  unfold Emit.toText
  split
  · exact keeps_pure _ _
  · split
    · exact (hT.traced _ _ rfl).seq fun _ _ => hT.call _
    · exact hT.call _

theorem storeOperands {l l' : Local} {os os' : List Operand} (hl : l.Paired g l')
    (h : List.Forall₂ (Operand.Paired g) os os') (i : Nat) :
    T.Keeps g (Emit.storeOperands l i os) (Emit.storeOperands l' i os') := by
  induction h generalizing i with
  | nil => exact keeps_pure _ _
  | cons ho _ ih =>
    exact (hT.storeItemOf (.variable hl) (.constant _) ho).seq fun _ _ => ih (i + 1)

theorem formatText (format : String) {os os' : List Operand}
    (h : List.Forall₂ (Operand.Paired g) os os') :
    T.Keeps g (Emit.formatText format os) (Emit.formatText format os') := by
  unfold Emit.formatText
  rw [← h.length_eq]
  refine (hT.makeArray _ (.constant _)).seq fun _ _ => ?_
  refine (hT.formatted g).bind fun g' hle l l' hl => ?_
  have hos := h.imp fun _ _ ho => Operand.Paired.mono hle ho
  exact (hT.storeLocal hl).seq fun _ _ => (hT.storeOperands hl hos 0).seq fun _ _ =>
    (hT.loadText _).seq fun _ _ => (hT.loadLocal hl).seq fun _ _ => hT.call _

end Straight

end Tandem

end Stackwright
