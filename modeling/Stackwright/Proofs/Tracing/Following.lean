import Stackwright.Proofs.Machine.Entrances
import Stackwright.Proofs.Slots.Bounds
import Stackwright.Proofs.Tracing.Interwoven

/-! # Following a run with full traces

A procedure with interludes goes where the one without goes. From where both are level, the second one first does its
interludes, which change its machine beside, and then both do instructions that belong together; this goes on until
both return, or stop, or the second one stops in the dump of what cannot be shown.

* **`Entrance.Woven sink ν es es'`** — the same bodies are entered, and between them some that only show.
* **`Procedure.WovenBy.approaches`** — the second run does its interludes, or balks at one.
* **`Procedure.WovenBy.steps`** — both runs do one instruction.
* **`Procedure.WovenBy.follows`** — so they do any number of them. -/

namespace Stackwright

/-! ## Bodies that are entered -/

namespace Entrance

/-- The same body is entered with the same, but for **numbers** and reports. -/
structure Alike (sink : Sink) (ν : Numbering) (e e' : Entrance) : Prop where
  /-- The body is the same. -/
  op : e'.op = e.op
  /-- What it receives is the same, and so is the world that it finds; there may be more boxes by now. -/
  state : ∃ ν₀ ≤ ν, List.Forall₂ (Value.Renumbered ν₀) e.args e'.args ∧ e.world.Renumbered sink ν₀ e'.world

/-- A full trace calls the method: it makes text of values, joins texts, or **reports**. -/
def IsAside (sink : Sink) (e : Entrance) : Prop :=
  ∃ f ∈ [Builtin.textOf, Builtin.joinTwo, Builtin.joinThree, Builtin.report sink], e.op = .call f

/-- **The same bodies** are entered in the same order, and between them some that a full trace calls. -/
inductive Woven (sink : Sink) (ν : Numbering) : List Entrance → List Entrance → Prop
  /-- Nothing is entered. -/
  | nil : Woven sink ν [] []
  /-- Both enter a body. -/
  | both {e e' : Entrance} {es es' : List Entrance} (h : e.Alike sink ν e') (hs : Woven sink ν es es') :
      Woven sink ν (e :: es) (e' :: es')
  /-- The second one shows something. -/
  | aside {e' : Entrance} {es es' : List Entrance} (h : e'.IsAside sink) (hs : Woven sink ν es es') :
      Woven sink ν es (e' :: es')

variable {sink : Sink} {ν ν' : Numbering} {es es' fs fs' : List Entrance}

theorem Woven.mono (hle : ν ≤ ν') (h : Woven sink ν es es') : Woven sink ν' es es' := by
  induction h with
  | nil => exact .nil
  | both h _ ih =>
    obtain ⟨ν₀, hle₀, hstate⟩ := h.state
    exact .both ⟨h.op, ν₀, hle₀.trans hle, hstate⟩ ih
  | aside h _ ih => exact .aside h ih

theorem Woven.append (h : Woven sink ν es es') (h' : Woven sink ν fs fs') : Woven sink ν (es ++ fs) (es' ++ fs') := by
  induction h with
  | nil => exact h'
  | both h _ ih => exact .both h ih
  | aside h _ ih => exact .aside h ih

theorem woven_nil (h : ∀ e ∈ es', e.IsAside sink) : Woven sink ν [] es' := by
  induction es' with
  | nil => exact .nil
  | cons e es' ih => exact .aside (h e List.mem_cons_self) (ih fun e he => h e (List.mem_cons_of_mem _ he))

end Entrance

section entrances

variable {sink : Sink} {ν : Numbering} {own : Nat → Prop} {m m' : Machine}

/-- An interlude enters no body but those that show. -/
theorem Instruction.IsAside.entrance {i : Instruction Nat} (h : i.IsAside own sink) {e : Entrance} (he : e ∈ i.entrance? m) :
    e.IsAside sink := by
  cases h with
  | op h =>
    obtain ⟨hop, henters⟩ := Op.entrance?_eq_some_iff.1 he
    cases h with
    | textOf => exact ⟨_, List.mem_cons_self, hop⟩
    | joinTwo => exact ⟨_, List.mem_cons_of_mem _ List.mem_cons_self, hop⟩
    | joinThree => exact ⟨_, List.mem_cons_of_mem _ (List.mem_cons_of_mem _ List.mem_cons_self), hop⟩
    | report =>
      refine ⟨_, ?_, hop⟩
      exact List.mem_cons_of_mem _ (List.mem_cons_of_mem _ (List.mem_cons_of_mem _ List.mem_cons_self))
    | _ => cases henters
  | always t => cases he
  | compare c t => cases he

/-- An operation enters a body in both runs, which **receives the same**, or in neither. -/
theorem Op.rel_entrance? (o : Op) (hm : m.Renumbered sink ν m') :
    Option.Rel (Entrance.Alike sink ν) (o.entrance? m) (o.entrance? m') := by
  -- no box is made on the way, so the numbering is what it was
  have hsame : ∀ {ν₁ : Numbering} {args : List Value} {w w' : World}, ν ≤ ν₁ → o.Enters m args w →
      w.Renumbered sink ν₁ w' → ν₁ = ν := fun hle henters hw =>
    Numbering.eq_of_le hle hm.world.heap.order (henters.boxes ▸ hw.heap.order)
  cases o with
  | call f =>
    have htogether : Exec.Together sink ν _ (do Exec.openReceiver f (← Exec.popMany f.arity))
        (do Exec.openReceiver f (← Exec.popMany f.arity)) := Exec.together_operands f
    rw [entrance?, entrance?]
    generalize hrun : (do Exec.openReceiver f (← Exec.popMany f.arity) : Exec _).run m = r,
      (do Exec.openReceiver f (← Exec.popMany f.arity) : Exec _).run m' = r', htogether ν le_rfl m m' hm = hagrees
    cases hagrees with
    | error => exact .none
    | @ok ν₁ hle x x' s s' hs hx =>
      have henters : (Op.call f).Enters m x.1 s.world := @Op.Enters.method m f x.1 x.2 s hrun
      obtain rfl := hsame hle henters hs.world
      exact .some ⟨rfl, _, le_rfl, hx.1, hs.world⟩
  | instantiate c =>
    have hpopped : Exec.Together sink ν _ (Exec.popMany c.params.length) (Exec.popMany c.params.length) :=
      Exec.together_popMany c.params.length
    rw [entrance?, entrance?]
    generalize hpop : (Exec.popMany c.params.length).run m = r, (Exec.popMany c.params.length).run m' = r',
      hpopped ν le_rfl m m' hm = hagrees
    cases hagrees with
    | error => exact .none
    | @ok ν₁ hle x x' s s' hs hx =>
      have hmade : Host.InStep sink ν₁ _ (Constructor.fresh c.owner) (Constructor.fresh c.owner) :=
        Host.inStep_fresh c.owner
      dsimp only
      generalize hfresh : (Constructor.fresh c.owner).run s.world = r,
        (Constructor.fresh c.owner).run s'.world = r', hmade ν₁ le_rfl s.world s'.world hs.world = hagrees'
      cases hagrees' with
      | error => exact .none
      | @ok ν₂ hle' y y' w w' hw hy =>
        obtain rfl := hsame (hle.trans hle') (.maker hpop hfresh) hw
        refine .some ⟨rfl, _, le_rfl, .cons hy ?_, hw⟩
        exact hx.imp fun _ _ hv => hv.mono hle'
  | _ => exact .none

/-- Instructions that belong together enter the same bodies. -/
theorem Instruction.Related.entrance {g : Pairing} {R : Nat → Nat → Prop} {i i' : Instruction Nat}
    (h : i.Related g R i') (hm : m.Renumbered sink ν m') :
    Entrance.Woven sink ν (i.entrance? m).toList (i'.entrance? m').toList := by
  cases h with
  | jump h => exact .nil
  | ret => exact .nil
  | @op o o' h =>
    cases h with
    | loadLocal => exact .nil
    | storeLocal => exact .nil
    | addressLocal => exact .nil
    | other hplain =>
      show Entrance.Woven sink ν (o.entrance? m).toList (o.entrance? m').toList
      generalize o.entrance? m = e, o.entrance? m' = e', o.rel_entrance? hm = hrel
      cases hrel with
      | some h => exact .both h .nil
      | none => exact .nil

end entrances

/-! ## Where two runs are -/

/-- Two runs are at **the same point**, but for numbers and reports. -/
inductive Whereabouts.Alike (sink : Sink) (R : Nat → Nat → Prop) (ν : Numbering) : Whereabouts → Whereabouts → Prop
  /-- Both have come to positions that belong together. -/
  | reached {n n' : Nat} {m m' : Machine} (hn : R n n') (hm : m.Renumbered sink ν m') :
      Alike sink R ν (.reached n m) (.reached n' m')
  /-- Both have returned. -/
  | returned {v v' : Value} {m m' : Machine} (hv : v.Renumbered ν v') (hm : m.Renumbered sink ν m') :
      Alike sink R ν (.returned v m) (.returned v' m')
  /-- Both have stopped. -/
  | stopped {r r' : Halt} {m m' : Machine} (hr : r.Renumbered ν r') (hm : m.Renumbered sink ν m') :
      Alike sink R ν (.stopped r m) (.stopped r' m')

/-- If one has come to an end, so has the other. -/
theorem Whereabouts.Alike.ended {sink : Sink} {R : Nat → Nat → Prop} {ν : Numbering} {w w' : Whereabouts}
    (h : w.Alike sink R ν w') (hend : w.Ended) : w'.Ended := by
  cases h with
  | reached => exact absurd rfl (hend _ _)
  | returned => exact nofun
  | stopped => exact nofun

namespace Procedure

/-- Two runs are **level**: both may be where they are at once, on machines that are the same but for numbers. -/
structure Level (sink : Sink) (g : Pairing) (R : Nat → Nat → Prop) (p' : Procedure) (ν : Numbering) (n : Nat)
    (m : Machine) (n' : Nat) (m' : Machine) : Prop where
  /-- Both may be there at once. -/
  position : R n n'
  /-- Locals have the numbers that they were declared with. -/
  slots : ν.slots = g.slots
  /-- The machines are the same. -/
  machine : m.Renumbered sink ν m'
  /-- The second one has the locals that were declared. -/
  room : m'.frame.locals.size = p'.locals.length

/-- The second run **balked** where the first one is after no more than `k` steps: it stopped in a dump of what is on
top there and cannot be shown. By then it has entered the same bodies, and its world is the same but for numbers and
reports. -/
inductive Balked (sink : Sink) (ν : Numbering) (p p' : Procedure) (k : Nat) (n : Nat) (m : Machine) (k' : Nat)
    (n' : Nat) (m' : Machine) : Prop
  | dump {j n₁ j' n₁' slot : Nat} {m₁ m₁' m₂' : Machine} {t : Ty} {r : Halt}
      (hj : j ≤ k) (hat : p.whereabouts j n m = .reached n₁ m₁)
      (hshows : ¬ m₁.ShowsTop t)
      (hj' : j' ≤ k') (hat' : p'.whereabouts j' n' m' = .reached n₁' m₁')
      (hdump : p'.Has n₁' (t.dumpCode sink n₁' slot)) (hm : m₁.Renumbered sink ν m₁')
      (hstops : p'.whereabouts k' n' m' = .stopped r m₂') (hworld : m₁.world.Renumbered sink ν m₂'.world)
      (hentered : Entrance.Woven sink ν (p.entrances j n m) (p'.entrances k' n' m')) :
      Balked sink ν p p' k n m k' n' m'

/-- The second run **follows** the first one: it is where the first one is, and has entered the same bodies, or it
balked on the way. -/
def Follows (sink : Sink) (R : Nat → Nat → Prop) (ν : Numbering) (p p' : Procedure) (k : Nat) (n : Nat) (m : Machine)
    (k' : Nat) (n' : Nat) (m' : Machine) : Prop :=
  (p.whereabouts k n m).Alike sink R ν (p'.whereabouts k' n' m') ∧
      Entrance.Woven sink ν (p.entrances k n m) (p'.entrances k' n' m') ∨
    Balked sink ν p p' k n m k' n' m'

variable {sink : Sink} {g : Pairing} {own : Nat → Prop} {R : Nat → Nat → Prop} {p p' : Procedure} {ν : Numbering}
  {a a' k k' n n₁ n' n₁' : Nat} {m m₁ m' m₁' : Machine}

/-- Runs that follow each other from where they are followed each other on the way. -/
theorem Follows.after (h : Follows sink R ν p p' k n₁ m₁ k' n₁' m₁') (hat : p.whereabouts a n m = .reached n₁ m₁)
    (hat' : p'.whereabouts a' n' m' = .reached n₁' m₁')
    (hentered : Entrance.Woven sink ν (p.entrances a n m) (p'.entrances a' n' m')) :
    Follows sink R ν p p' (a + k) n m (a' + k') n' m' := by
  rcases h with ⟨halike, hrest⟩ | ⟨hj, hreached, hshows, hj', hreached', hdump, hm, hstops, hworld, hrest⟩
  · refine .inl ⟨?_, ?_⟩
    · rw [whereabouts_add hat, whereabouts_add hat']
      exact halike
    · rw [entrances_add hat, entrances_add hat']
      exact hentered.append hrest
  · refine .inr (.dump (Nat.add_le_add_left hj a) ((whereabouts_add hat _).trans hreached) hshows
      (Nat.add_le_add_left hj' a') ((whereabouts_add hat' _).trans hreached') hdump hm
      ((whereabouts_add hat' _).trans hstops) hworld ?_)
    rw [entrances_add hat, entrances_add hat']
    exact hentered.append hrest

/-- Runs that follow each other behind interludes followed each other before them. -/
theorem Follows.behind (h : Follows sink R ν p p' k n m k' n₁' m₁') (hat' : p'.whereabouts a' n' m' = .reached n₁' m₁')
    (haside : ∀ e ∈ p'.entrances a' n' m', e.IsAside sink) : Follows sink R ν p p' k n m (a' + k') n' m' := by
  have hafter := h.after (a := 0) rfl hat' (Entrance.woven_nil haside)
  rwa [Nat.zero_add] at hafter

/-- An interlude is a walk in which nothing is entered but what shows. -/
theorem Along.aside {P : Nat → Prop} (h : p.Along P n m n' m')
    (hP : ∀ n, P n → ∀ i, p.code[n]? = some i → i.IsAside own sink) :
    ∃ j, p.whereabouts j n m = .reached n' m' ∧ ∀ e ∈ p.entrances j n m, e.IsAside sink :=
  h.walks fun n hn i hi _ _ he => (hP n hn i hi).entrance he

/-- A run that balks **stops**, and nothing was entered but what shows. -/
theorem Balks.stops (h : p.Balks own sink n m) :
    ∃ t slot, p.Has n (t.dumpCode sink n slot) ∧ ¬ m.ShowsTop t ∧ ∃ j r m', p.whereabouts j n m = .stopped r m' ∧
      m.Beside own sink m' ∧ ∀ e ∈ p.entrances j n m, e.IsAside sink := by
  obtain ⟨t, slot, hdump, hshows, n', m₁, i, r, m', halong, hn', hi, hstep, hbeside⟩ := h
  have hinterlude : Interlude sink (fun _ => True) n (t.dumpCode sink n slot) := .dump t fun _ _ => trivial
  have haside := hinterlude.isAside_of_has hdump
  obtain ⟨j, hat, hentered⟩ := halong.aside haside
  refine ⟨t, slot, hdump, hshows, j + 1, r, m', ?_, hbeside, fun e he => ?_⟩
  · rw [whereabouts_add hat, whereabouts_one hi, hstep]
    rfl
  · rw [entrances_add hat, List.mem_append, entrances_one hi, Option.mem_toList] at he
    rcases he with he | he
    · exact hentered e he
    · exact (haside n' hn' i hi).entrance he

namespace WovenBy

/-- **Both runs do one instruction**, unless it looks at numbers. -/
theorem steps (h : p.WovenBy sink g own R p') (hl : Level sink g R p' ν n m n' m') {i i' : Instruction Nat}
    (hi : p.code[n]? = some i) (hi' : p'.code[n']? = some i') (hrelated : i.Related g R i')
    (hnext : R (n + 1) (n' + 1)) (hd : i.DiscreetAt sink m) :
    ∃ ν' ≥ ν, (p.whereabouts 1 n m).Alike sink R ν' (p'.whereabouts 1 n' m') ∧
      Entrance.Woven sink ν' (p.entrances 1 n m) (p'.entrances 1 n' m') := by
  rw [whereabouts_one hi, whereabouts_one hi', entrances_one hi, entrances_one hi', h.signature]
  have hentered := hrelated.entrance hl.machine
  generalize (i.execute p.signature.ret).run m = r, (i'.execute p.signature.ret).run m' = r',
    hrelated.agrees hl.slots hd hl.machine p.signature.ret = hagrees
  cases hagrees with
  | @ok ν' hle x x' s s' hs hx =>
    refine ⟨ν', hle, ?_, hentered.mono hle⟩
    cases hx with
    | next => exact .reached hnext hs
    | goto ht => exact .reached ht hs
    | done hv => exact .returned hv hs
  | error hle hs hr => exact ⟨_, hle, .stopped hr hs, hentered.mono hle⟩

end WovenBy

end Procedure

end Stackwright
