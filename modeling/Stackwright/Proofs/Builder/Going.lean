import Stackwright.Proofs.Builder.Fitting
import Stackwright.Proofs.Emission.Loading
import Stackwright.Proofs.Slots.Bounds
import Stackwright.Proofs.Tracing.Showing

/-! # Code that is gone through

What an accepted call records without a jump is gone through from its beginning to its end, dumps included,
unless something in it stops. What a machine needs so that nothing stops, and what is known behind the code,
are stated for each call at one level, and put together for calls in a row.

* **`Session.Goes s S Q s'`** — what was recorded between two sessions is gone through.
* **`Emit.goes_load`** — an operand is loaded. -/

namespace Stackwright

/-- A run along positions changes neither number of slots. -/
theorem Procedure.Along.sameSize {p : Procedure} {P : Nat → Prop} {n n' : Nat} {m m' : Machine}
    (h : p.Along P n m n' m') : m.SameSize m' := by
  induction h with
  | here => exact ⟨rfl, rfl⟩
  | next _ _ hstep _ ih => exact (Instruction.keepsSize_execute _ _ _ _ _ hstep).trans ih
  | goto _ _ hstep _ ih => exact (Instruction.keepsSize_execute _ _ _ _ _ hstep).trans ih

/-- With another stack the same is aside. -/
theorem Machine.Aside.replaceStack {k : Nat} {m m' : Machine} (h : m.Aside k m') (stack : List Value) :
    (m.withStack stack).Aside k (m'.withStack stack) :=
  ⟨h.args, h.size, h.locals, h.heap⟩

/-- With another value in a local the same is aside. -/
theorem Machine.Aside.withLocal {k : Nat} {m m' : Machine} (h : m.Aside k m') (i : Nat) (v : Value) :
    (m.withLocal i v).Aside k (m'.withLocal i v) where
  args := h.args
  size := by rw [Machine.size_withLocal, Machine.size_withLocal, h.size]
  locals j hj := by
    rw [Machine.withLocal, Machine.withLocal, Array.getElem?_setIfInBounds, Array.getElem?_setIfInBounds,
      h.size, h.locals j hj]
  heap := h.heap

namespace Session

/-- What was recorded between two sessions is **gone through**: from a machine that satisfies `S` a run comes to
its end, and in any case `Q` holds of the machines before and behind it. -/
structure Goes (s : Session) (S : Machine → Prop) (Q : Machine → Machine → Prop) (s' : Session) : Prop where
  /-- The session went on. -/
  further : s.Extends s'
  /-- The same constructs are open. -/
  constructs : s'.constructs = s.constructs
  /-- No local is given back. -/
  locals : s.locals.size ≤ s'.locals.size
  /-- No label is given back. -/
  labels : s.labels.entries.size ≤ s'.labels.entries.size
  /-- Where a run gets. -/
  attains : ∀ {p : Procedure} {f : Session}, p.Fits f → s'.Extends f → ∀ m : Machine,
    p.Attains (Procedure.Stretch s.code.size s'.code.size) (S m ∧ s'.locals.size ≤ m.frame.locals.size)
      s.code.size m fun n' m' => n' = s'.code.size ∧ Q m m'

namespace Goes

variable {s s' s'' : Session} {S S' : Machine → Prop} {Q Q' : Machine → Machine → Prop}

theorem imp (h : s.Goes S Q s') (hS : ∀ m, S' m → S m) (hQ : ∀ m m', Q m m' → Q' m m') : s.Goes S' Q' s' where
  further := h.further
  constructs := h.constructs
  locals := h.locals
  labels := h.labels
  attains hp hf m := (h.attains hp hf m).imp (fun _ h => h) (fun hs => ⟨hS m hs.1, hs.2⟩)
    fun _ _ h => ⟨h.1, hQ m _ h.2⟩

/-- There are as many locals as the session has behind the code. -/
theorem sized (h : s.Goes S Q s') (hS : ∀ m, s'.locals.size ≤ m.frame.locals.size → S' m → S m) : s.Goes S' Q s' where
  further := h.further
  constructs := h.constructs
  locals := h.locals
  labels := h.labels
  attains hp hf m := (h.attains hp hf m).imp (fun _ h => h) (fun hs => ⟨hS m hs.2 hs.1, hs.2⟩) fun _ _ h => h

theorem trans (h : s.Goes S Q s') (h' : s'.Goes S' Q' s'') :
    s.Goes (fun m => S m ∧ ∀ m', Q m m' → S' m') (fun m m'' => ∃ m', Q m m' ∧ Q' m' m'') s'' where
  further := h.further.trans h'.further
  constructs := h'.constructs.trans h.constructs
  locals := Nat.le_trans h.locals h'.locals
  labels := Nat.le_trans h.labels h'.labels
  attains {p f} hp hf m := by
    have hsize := h.further.size
    have hsize' := h'.further.size
    have hfirst := h.attains hp (h'.further.trans hf) m
    -- what is reached in the middle has as many locals
    have hmiddle : p.Attains (Procedure.Stretch s.code.size s'.code.size)
        (S m ∧ s'.locals.size ≤ m.frame.locals.size) s.code.size m fun n' m' =>
          n' = s'.code.size ∧ Q m m' ∧ m.SameSize m' := by
      rcases hfirst with ⟨n', m', halong, hn, hq⟩ | hstop
      · exact .inl ⟨n', m', halong, hn, hq, halong.sameSize⟩
      · exact .inr hstop
    refine (hmiddle.imp (fun i hi => ⟨hi.1, Nat.lt_of_lt_of_le hi.2 hsize'⟩)
      (fun hs => ⟨hs.1.1, Nat.le_trans h'.locals hs.2⟩) fun _ _ h => h).bind ?_
    rintro n' m' ⟨rfl, hq, hsame⟩
    refine (h'.attains hp hf m').imp (fun i hi => ⟨Nat.le_trans hsize hi.1, hi.2⟩)
      (fun hs => ⟨hs.1.2 m' hq, hsame.locals ▸ hs.2⟩) fun n'' m'' h => ⟨h.1, m', hq, h.2⟩

end Goes

variable {s s' : Session}

/-- What only reports is gone through. -/
theorem Tells.goes (h : s.Tells s') : s.Goes (fun _ => True) Machine.Alike s' where
  further := h.further
  constructs := h.constructs
  locals := Nat.le_of_eq (by rw [h.locals])
  labels := h.labels
  attains hp hf m := by
    obtain ⟨m', hcross, halike⟩ := h.slides hp hf m
    exact (hcross.along fun _ hi hi' => ⟨hi, hi'⟩).attains (.here ⟨rfl, halike⟩)

/-- One operation. -/
theorem goes_recorded (s : Session) (o : Op) :
    s.Goes (fun m => ∃ m', o.execute.run m = .ok () m') (fun m m' => o.execute.run m = .ok () m')
      (s.recorded [o]) where
  further := (s.wentOn_recorded [o]).grows.extends
  constructs := rfl
  locals := Nat.le_refl _
  labels := Nat.le_refl _
  attains {p f} hp hf m := by
    have hwent := s.wentOn_recorded [o]
    have hsize : (s.recorded [o]).code.size = s.code.size + 1 := hwent.size
    obtain ⟨ho, -⟩ := Procedure.has_cons.1 (hp.has hf hwent.spells)
    refine .op ⟨Nat.le_refl _, by omega⟩ ho (fun m' hm' => .here ⟨hsize.symm, hm'⟩) fun hs => hs.1

end Session

namespace Emit

variable {level : TraceDetail} {t : Tracer} {s s' : Session} {k : Nat}

/-- An operation behind its line. -/
theorem goes_traced {text : String} {o : Op} (h : ((traced text o).run t).run s = .ok () s') :
    s.Goes (fun m => ∀ m₁, m.Alike m₁ → ∃ m', o.execute.run m₁ = .ok () m')
      (fun m m' => ∃ m₁, m.Alike m₁ ∧ o.execute.run m₁ = .ok () m') s' := by
  obtain ⟨u, s₁, hnote, hop⟩ := run_bind_eq_ok.1 h
  rw [run_op] at hop
  cases hop
  exact ((tells_note hnote).goes.trans (s₁.goes_recorded o)).imp (fun m hm => ⟨trivial, hm⟩) fun _ _ h => h

/-- The top is shown, if its dump comes to an end. -/
theorem goes_probe_of {T : Ty} {S : Machine → Prop} (hk : k ≤ s.locals.size) (hlabels : 0 < s.labels.entries.size)
    (hdump : ∀ (p : Procedure) (sink : Sink) (n j : Nat) (m : Machine) (S' : Prop), p.Has n (T.dumpCode sink n j) →
      (S' → S m ∧ j + T.textSlots < m.frame.locals.size) →
      p.Attains (Procedure.Stretch n (n + (T.dumpCode sink n j).length)) S' n m fun n' m' =>
        n' = n + (T.dumpCode sink n j).length ∧ m.Aside j m' ∧ m'.frame.stack = m.frame.stack)
    (h : ((probe T).run (.ofLevel level)).run s = .ok () s') :
    s.Goes (fun m => level = .full → S m) (Machine.Interlude k) s' := by
  cases level with
  | off =>
    cases h
    exact (Session.Tells.refl s).goes.imp (fun _ _ => trivial) fun _ _ h => ⟨.of_alike k h, h.stack⟩
  | log =>
    cases h
    exact (Session.Tells.refl s).goes.imp (fun _ _ => trivial) fun _ _ h => ⟨.of_alike k h, h.stack⟩
  | full =>
    obtain ⟨s₁, hrun, hwrote⟩ := run_showTop T hlabels
    have h : ((showTop T).run .silent).run s = .ok () s' := h
    cases hrun.symm.trans h
    have hlocals := hwrote.slots
    refine ⟨hwrote.grows.extends, hwrote.constructs, hwrote.grows.locals_size, hwrote.grows.labels_size, ?_⟩
    intro p f hp hf m
    rw [hwrote.size]
    refine (hdump p _ _ _ m ((TraceDetail.full = .full → S m) ∧ s'.locals.size ≤ m.frame.locals.size)
      (hp.has hf hwrote.spells) fun hs => ?_).imp (fun _ h => h) id fun _ _ h => ⟨h.1, h.2.1.fewer hk, h.2.2⟩
    exact ⟨hs.1 rfl, by have := hs.2; omega⟩

/-- A value on top is shown, if it can be shown. -/
theorem goes_probe {T : Ty} (hk : k ≤ s.locals.size) (hlabels : 0 < s.labels.entries.size)
    (h : ((probe T).run (.ofLevel level)).run s = .ok () s') :
    s.Goes (fun m => level = .full → ∃ v rest, m.frame.stack = v :: rest ∧ m.world.heap.Shows T v)
      (Machine.Interlude k) s' := by
  refine goes_probe_of hk hlabels (fun p sink n j m S' hcode hS => Procedure.attains_dump hcode fun hs => ?_) h
  obtain ⟨⟨v, rest, hstack, hshows⟩, hslots⟩ := hS hs
  exact ⟨v, rest, hstack, hshows, hslots⟩

/-- The **address** of a place for a value type is shown as what the place holds. -/
theorem goes_probe_address {T : Ty} (hT : T.isValue) (hk : k ≤ s.locals.size)
    (hlabels : 0 < s.labels.entries.size) (h : ((probe T).run (.ofLevel level)).run s = .ok () s') :
    s.Goes (fun m => ∃ l w rest, m.frame.stack = .address l :: rest ∧ m.read l = .ok w) (Machine.Interlude k) s' := by
  refine (goes_probe_of (S := fun m => ∃ l w rest, m.frame.stack = .address l :: rest ∧ m.read l = .ok w) hk hlabels
    (fun p sink n j m S' hcode hS => ?_) h).imp (fun _ hm _ => hm) fun _ _ h => h
  exact Procedure.attains_dump_address hT hcode hS

/-! ### Operands -/

/-- A constant behind its line. -/
theorem goes_push {text : String} {v : Value} (h : ((traced text (.push v)).run t).run s = .ok () s') :
    s.Goes (fun _ => True) (fun m m' => m.Aside k m' ∧ m'.frame.stack = v :: m.frame.stack) s' := by
  refine (goes_traced h).imp (fun m _ m₁ _ => ⟨_, rfl⟩) ?_
  rintro m m' ⟨m₁, halike, hrun⟩
  cases hrun
  exact ⟨(Machine.Aside.of_alike k halike).trans (.withStack k _ _), congrArg (v :: ·) halike.stack⟩

theorem goes_loadScalar {x : Scalar} (h : ((loadScalar x).run t).run s = .ok () s') :
    s.Goes (fun _ => True) (fun m m' => m.Aside k m' ∧ m'.frame.stack = .scalar x.loaded :: m.frame.stack) s' := by
  cases x with
  | bool b => exact goes_push h
  | float K v => cases K <;> exact goes_push h
  | word K v => cases K <;> first | exact goes_push h | cases h

theorem goes_loadConstant {c : Constant} (h : ((loadConstant c).run t).run s = .ok () s') :
    s.Goes (fun _ => True) (fun m m' => m.Aside k m' ∧ m'.frame.stack = c.loaded :: m.frame.stack) s' := by
  cases c with
  | null => exact goes_push h
  | text x => exact goes_push h
  | char v => cases h
  | scalar x => exact goes_loadScalar h
  | handle T =>
    obtain ⟨u, s₁, htoken, hcall⟩ := run_bind_eq_ok.1 h
    have hpush := goes_push (k := k) htoken
    refine (hpush.trans (goes_traced hcall)).imp (fun m _ => ⟨trivial, ?_⟩) ?_
    · rintro m₁ ⟨-, hstack⟩ m₂ halike
      exact ⟨m₂, Exec.run_typeOfHandle (halike.stack.trans hstack)⟩
    · rintro m m' ⟨m₁, ⟨haside, hstack⟩, m₂, halike, hrun⟩
      rw [Exec.run_typeOfHandle (halike.stack.trans hstack)] at hrun
      cases hrun
      exact ⟨haside.trans (.of_alike k halike), halike.stack.trans hstack⟩
  | enumeration T raw =>
    obtain ⟨u, s₁, hnote, h⟩ := run_bind_eq_ok.1 h
    rw [Constant.loaded]
    cases hT : T.enumKind with
    | error e =>
      rw [hT] at h
      cases h
    | ok kind =>
      rw [hT] at h
      dsimp only at h ⊢
      cases hraw : Constant.ofRaw kind raw with
      | scalar x =>
        rw [hraw] at h
        refine ((tells_note hnote).goes.trans (goes_loadScalar (k := k) h)).imp
          (fun m _ => ⟨trivial, fun _ _ => trivial⟩) ?_
        rintro m m' ⟨m₁, halike, haside, hstack⟩
        exact ⟨(Machine.Aside.of_alike k halike).trans haside, by rw [hstack, halike.stack]⟩
      | _ =>
        rw [hraw] at h
        cases h

/-- Only an argument that is there is loaded. -/
theorem of_loadArg {i : Nat} {m m' : Machine} (h : (Op.execute (.loadArg i)).run m = .ok () m') :
    ∃ v, m.frame.args[i]? = some v ∧ m' = m.withStack (v :: m.frame.stack) := by
  cases hi : m.frame.args[i]? with
  | some v =>
    rw [Exec.run_loadArg hi] at h
    cases h
    exact ⟨v, rfl, rfl⟩
  | none =>
    have hload : (Exec.getArg i).run m = .error (.fault (.outside i m.frame.args.size)) m := by
      show (Exec.slotAt m.frame.args i).run m = _
      rw [Exec.slotAt, hi]
      rfl
    rw [Op.execute, Exec.run_bind_error hload] at h
    cases h

/-- A machine **shows an operand**: it has a value, and a full trace can show it if it is that of a local. -/
def Shown (level : TraceDetail) (o : Operand) (m : Machine) : Prop :=
  ∃ v, m.operand? o = some v ∧ (level = .full → ∀ l, o = .variable l → m.world.heap.Shows l.type v)

/-- A machine has the value of an operand on top of what was on the stack before. -/
def Loads (k : Nat) (o : Operand) (m m' : Machine) : Prop :=
  m.Aside k m' ∧ ∃ v, m.operand? o = some v ∧ m'.frame.stack = v :: m.frame.stack

theorem loads_of_alike {o : Operand} {m m₁ : Machine} {v : Value} (h : m.Alike m₁) (hv : m₁.operand? o = some v) :
    Loads k o m (m₁.withStack (v :: m₁.frame.stack)) := by
  refine ⟨(Machine.Aside.of_alike k h).trans (.withStack k _ _), v, ?_, congrArg (v :: ·) h.stack⟩
  cases o with
  | constant c => exact hv
  | argument a => rwa [Machine.operand?, h.frame] at hv
  | «variable» l => rwa [Machine.operand?, h.frame] at hv

/-- An operand is **loaded**. -/
theorem goes_load {o : Operand} (hk : k ≤ s.locals.size) (hlabels : 0 < s.labels.entries.size)
    (h : ((load o).run (.ofLevel level)).run s = .ok () s') : s.Goes (Shown level o) (Loads k o) s' := by
  cases o with
  | constant c =>
    exact (goes_loadConstant (k := k) h).imp (fun _ _ => trivial) fun m m' h => ⟨h.1, _, rfl, h.2⟩
  | argument a =>
    have h : (((do
        let a ← arg a.index
        traced ("Ldarg " ++ toString a.index) (.loadArg a.index) : Emit Unit)).run (.ofLevel level)).run s =
          .ok () s' := h
    obtain ⟨b, s₁, harg, htraced⟩ := run_bind_eq_ok.1 h
    obtain ⟨hindex, rfl⟩ : b.index = a.index ∧ s₁ = s := by
      rw [arg, run_bind, run_get] at harg
      dsimp only at harg
      split at harg
      · cases harg
        exact ⟨rfl, rfl⟩
      · cases harg
    rw [hindex] at htraced
    refine (goes_traced htraced).imp ?_ ?_
    · rintro m ⟨v, hv, -⟩ m₁ halike
      exact ⟨_, Exec.run_loadArg (by rw [halike.frame]; exact hv)⟩
    · rintro m m' ⟨m₁, halike, hrun⟩
      obtain ⟨v, hv, rfl⟩ := of_loadArg hrun
      exact loads_of_alike (o := .argument a) halike hv
  | «variable» l =>
    obtain ⟨name, s₁, hname, h⟩ := run_bind_eq_ok.1 h
    rw [run_nameOf] at hname
    cases hname
    obtain ⟨u, s₁, hnote, h⟩ := run_bind_eq_ok.1 h
    obtain ⟨u, s₂, hop, hprobe⟩ := run_bind_eq_ok.1 h
    rw [run_op] at hop
    cases hop
    have hnote := tells_note hnote
    have hlocals : s₁.locals.size = s.locals.size := by rw [hnote.locals]
    have hfront := hnote.goes.trans (s₁.goes_recorded (.loadLocal l.index))
    have hshow := goes_probe (k := k) (s := s₁.recorded [.loadLocal l.index]) (by
      show k ≤ s₁.locals.size
      omega) (Nat.lt_of_lt_of_le hlabels hnote.labels) hprobe
    -- the value that is shown is the one that was loaded
    have hloaded : ∀ m m' : Machine, (∃ m₁, m.Alike m₁ ∧ (Op.execute (.loadLocal l.index)).run m₁ = .ok () m') →
        Loads k (.variable l) m m' := by
      rintro m m' ⟨m₁, halike, hrun⟩
      obtain ⟨v, hv, rfl⟩ := Exec.of_loadLocal hrun
      exact loads_of_alike (o := .variable l) halike hv
    refine (hfront.trans hshow).imp ?_ ?_
    · rintro m ⟨v, hv, hshows⟩
      refine ⟨⟨trivial, fun m₁ halike => ⟨_, Exec.run_loadLocal (v := v) (by rw [halike.frame]; exact hv)⟩⟩,
        fun m' hm' hfull => ?_⟩
      obtain ⟨haside, w, hw, hstack⟩ := hloaded m m' hm'
      cases hv.symm.trans hw
      exact ⟨v, _, hstack, (hshows hfull l rfl).adds haside.heap⟩
    · rintro m m'' ⟨m', hm', hinterlude⟩
      obtain ⟨haside, w, hw, hstack⟩ := hloaded m m' hm'
      exact ⟨haside.trans hinterlude.aside, w, hw, hinterlude.stack.trans hstack⟩

/-- A machine has the top of another one, made to fit, in a local. -/
def Stores (k : Nat) (l : Local) (m m' : Machine) : Prop :=
  ∃ v rest, m.frame.stack = v :: rest ∧ l.index < m.frame.locals.size ∧
    ((m.withStack rest).withLocal l.index (Value.fit l.type.storedAs? v)).Interlude k m'

/-- A machine has a value that can be stored into a local, and that a full trace can show. -/
def Storable (level : TraceDetail) (l : Local) (m : Machine) : Prop :=
  l.index < m.frame.locals.size ∧
    ∃ v rest, m.frame.stack = v :: rest ∧ (level = .full → m.world.heap.Shows l.type v)

/-- The top is shown behind a line. -/
theorem goes_shown {T : Ty} {text : String} {s₁ : Session} (hk : k ≤ s.locals.size) (hlabels : 0 < s.labels.entries.size)
    (hnote : ((note text).run (.ofLevel level)).run s = .ok () s₁)
    (hprobe : ((probe T).run (.ofLevel level)).run s₁ = .ok () s') :
    s.Goes (fun m => level = .full → ∃ v rest, m.frame.stack = v :: rest ∧ m.world.heap.Shows T v)
      (Machine.Interlude k) s' := by
  have hnote := tells_note hnote
  have hshow := goes_probe (k := k) (by rw [hnote.locals]; exact hk)
    (Nat.lt_of_lt_of_le hlabels hnote.labels) hprobe
  refine (hnote.goes.trans hshow).imp (fun m hm => ⟨trivial, fun m₁ halike hfull => ?_⟩) ?_
  · obtain ⟨v, rest, hstack, hshows⟩ := hm hfull
    exact ⟨v, rest, halike.stack.trans hstack, by rw [halike.heap]; exact hshows⟩
  · rintro m m' ⟨m₁, halike, hinterlude⟩
    exact Machine.Interlude.trans ⟨.of_alike k halike, halike.stack⟩ hinterlude

/-- The top is shown and **stored** into a local. -/
theorem goes_storeLocal {l : Local} (hk : k ≤ s.locals.size) (hlabels : 0 < s.labels.entries.size)
    (h : ((storeLocal l).run (.ofLevel level)).run s = .ok () s') : s.Goes (Storable level l) (Stores k l) s' := by
  obtain ⟨name, s₁, hname, h⟩ := run_bind_eq_ok.1 h
  rw [run_nameOf] at hname
  cases hname
  obtain ⟨u, s₁, hnote, h⟩ := run_bind_eq_ok.1 h
  obtain ⟨u, s₂, hprobe, hop⟩ := run_bind_eq_ok.1 h
  rw [run_op] at hop
  cases hop
  have hfront : s.Goes (Storable level l) (Machine.Interlude k) s₂ :=
    (goes_shown hk hlabels hnote hprobe).imp (fun _ ⟨_, v, rest, hstack, hshows⟩ hfull => ⟨v, rest, hstack, hshows hfull⟩)
      fun _ _ h => h
  refine (hfront.trans (s₂.goes_recorded _)).imp ?_ ?_
  · rintro m ⟨hl, v, rest, hstack, hshows⟩
    exact ⟨⟨hl, v, rest, hstack, hshows⟩, fun m₁ hm₁ =>
      ⟨_, Exec.run_storeLocal (hm₁.aside.size ▸ hl) (hm₁.stack.trans hstack)⟩⟩
  · rintro m m' ⟨m₁, hm₁, hrun⟩
    have hl := Exec.lt_of_storeLocal hrun
    cases hstack : m₁.frame.stack with
    | nil =>
      obtain ⟨⟨args, locals, stack⟩, world⟩ := m₁
      obtain rfl : stack = [] := hstack
      cases hrun
    | cons v rest =>
      cases (Exec.run_storeLocal hl hstack).symm.trans hrun
      refine ⟨v, rest, hm₁.stack.symm.trans hstack, hm₁.aside.size ▸ hl, ?_, rfl⟩
      exact (hm₁.aside.replaceStack rest).withLocal l.index _

/-- What is loaded and stored is in the local, and all else is as it was. -/
theorem Loads.stores {o : Operand} {l : Local} {m m₁ m' : Machine} (h : Loads k o m m₁) (h' : Stores k l m₁ m') :
    ∃ v, m.operand? o = some v ∧ (m.withLocal l.index (Value.fit l.type.storedAs? v)).Interlude k m' := by
  obtain ⟨haside, v, hv, hstack⟩ := h
  obtain ⟨w, rest, hstack', -, hinterlude⟩ := h'
  cases hstack.symm.trans hstack'
  have hset : (m.withLocal l.index (Value.fit l.type.storedAs? v)).Interlude k
      ((m₁.withStack m.frame.stack).withLocal l.index (Value.fit l.type.storedAs? v)) :=
    ⟨(haside.replaceStack m.frame.stack).withLocal l.index _, rfl⟩
  exact ⟨v, hv, hset.trans hinterlude⟩

end Emit

/-! ## Operations among reports and dumps -/

/-- Recorded code is gone through to its end, with its operations **played**, or the run stops. -/
theorem Procedure.attains_among {p : Procedure} {sink : Sink} {k n : Nat} {os : List Op}
    {is : List (Instruction Nat)} (h : Op.Among sink k n os is) (hp : p.Has n is) (m : Machine) :
    p.Attains (Stretch n (n + is.length)) False n m fun n' m' =>
      n' = n + is.length ∧ Op.Played k os m (.ok () m') := by
  refine Attains.crosses ?_ (leads_among h hp m)
  induction h generalizing m with
  | nil n => exact .here rfl
  | @op n o os is _ ih =>
    obtain ⟨ho, hrest⟩ := has_cons.1 hp
    have hsize : n + (Instruction.op o :: is).length = n + 1 + is.length := by rw [List.length_cons]; omega
    rw [hsize]
    refine .op ⟨Nat.le_refl n, by omega⟩ ho (fun m₁ _ => ?_) False.elim
    exact (ih hrest m₁).imp (fun i hi => ⟨Nat.le_of_succ_le hi.1, hi.2⟩) id fun _ _ h => h
  | @report n text os is _ ih =>
    obtain ⟨hreport, hrest⟩ := has_append.1 hp
    rw [Op.length_straight] at hrest
    obtain ⟨m₁, hrun, -⟩ := Exec.run_report sink text m
    have hsize : n + (Op.straight [.push (.text text), .call (Builtin.report sink)] ++ is).length =
        n + 2 + is.length := by
      rw [List.length_append, Op.length_straight, ← Nat.add_assoc]
      rfl
    rw [hsize]
    refine .done (has_straight.1 hreport) (fun i hi hi' => ⟨hi, ?_⟩) hrun ?_
    · simp only [List.length_cons, List.length_nil] at hi'
      omega
    · exact (ih hrest m₁).imp (fun i hi => ⟨Nat.le_trans (Nat.le_add_right n 2) hi.1, hi.2⟩) id fun _ _ h => h
  | @dump n j t hj os is _ ih =>
    obtain ⟨hdump, hrest⟩ := has_append.1 hp
    rw [List.length_append, ← Nat.add_assoc]
    refine ((attains_dump (m := m) hdump False.elim).imp
      (fun i hi => ⟨hi.1, Nat.lt_of_lt_of_le hi.2 (Nat.le_add_right _ _)⟩) id fun _ _ h => h).bind ?_
    rintro n' m₁ ⟨rfl, -⟩
    exact (ih hrest m₁).imp (fun i hi => ⟨Nat.le_trans (Nat.le_add_right _ _) hi.1, hi.2⟩) id fun _ _ h => h

namespace Emit

variable {α : Type} {e : Emit α} {P : α → List Op → Prop} {Q : List Op → Prop} {last : Op} {level : TraceDetail}
  {s s' : Session} {a : α}

/-- What an accepted call records is **gone through**, with its operations played. -/
theorem goes_of_records (h : e.Records P) (hspares : e.Sparing) (hs : s.Fit)
    (hrun : (e.run (.ofLevel level)).run s = .ok a s') :
    ∃ os, P a os ∧ s.Goes (fun _ => False) (fun m m' => Op.Played s.locals.size os m (.ok () m')) s' := by
  obtain ⟨os, is, hos, hwent, hamong⟩ := h level s s' a hs.labels hrun
  have hspared := hspares.spares hs hrun
  refine ⟨os, hos, hwent.grows.extends, hspared.constructs, hwent.grows.locals_size, hwent.grows.labels_size,
    fun hp hf m => ?_⟩
  rw [hwent.size]
  exact (Procedure.attains_among hamong (hp.has hf hwent.spells) m).imp (fun _ h => h) And.left fun _ _ h => h

/-- So is what comes before its last operation. -/
theorem goes_of_recordsThen {e : Emit Unit} (h : e.RecordsThen Q last) (hs : s.Fit)
    (hrun : (e.run (.ofLevel level)).run s = .ok () s') :
    ∃ os, Q os ∧ s.Extends s' ∧ ∀ {p : Procedure} {f : Session}, p.Fits f → s'.Extends f →
      ∃ n, s.code.size ≤ n ∧ s'.code.size = n + 1 ∧ p.code[n]? = some (.op last) ∧ ∀ m,
        p.Attains (Procedure.Stretch s.code.size n) False s.code.size m fun n' m' =>
          n' = n ∧ Op.Played s.locals.size os m (.ok () m') := by
  obtain ⟨os, is, hos, hwent, hamong⟩ := h level s s' hs.labels hrun
  refine ⟨os, hos, hwent.grows.extends, fun hp hf => ?_⟩
  obtain ⟨his, hlast⟩ := Procedure.has_append.1 (hp.has hf hwent.spells)
  obtain ⟨hlast, -⟩ := Procedure.has_cons.1 hlast
  have hsize := hwent.size
  rw [List.length_append, List.length_singleton, ← Nat.add_assoc] at hsize
  exact ⟨_, Nat.le_add_right _ _, hsize, hlast, fun m => Procedure.attains_among hamong his m⟩

end Emit

/-! ## Code for one machine -/

namespace Session

/-- Whether a session **may end**: nothing is open, and every label that is jumped to is marked. -/
def mayEnd (s : Session) : Bool := s.constructs.isEmpty && s.labels.check.isOk

/-- Whether a run of recorded code **stops** with a fault. An instruction is linked when the run comes to it, so for
what is given this can be computed without linking all of the code. -/
def stopsFrom (s : Session) (is : List (Instruction Label)) : Nat → Nat → Machine → Bool
  | 0, _, _ => false
  | k + 1, n, m =>
    match is[n]? with
    | none => false
    | some i =>
      match i.link s.labels with
      | .error _ => false
      | .ok i =>
        match (i.execute s.signature.ret).run m with
        | .ok .next m => s.stopsFrom is k (n + 1) m
        | .ok (.goto target) m => s.stopsFrom is k target m
        | .error (.fault _) _ => true
        | .ok (.done _) _ | .error .. => false

end Session

namespace Builder

variable {number : Nat} {name : String} {signature : Signature} {sink : Sink} {level : TraceDetail} {cs : List Call}
  {b : Builder}

/-- Whether a builder takes calls, and may end with some number of locals. For what is given this can be computed. -/
def finishes (b : Builder) (locals : Nat) : Bool :=
  match b.state with
  | .building s => s.mayEnd && s.locals.size == locals
  | _ => false

/-- Whether what a builder finishes **stops** with a fault on a machine that has room for its locals. For what is
given this can be computed. -/
def stops (b : Builder) (fuel : Nat) (m : Machine) : Bool :=
  b.finishes m.frame.locals.size && match b.state with
    | .building s => s.stopsFrom s.code.toList fuel 0 m
    | _ => false

end Builder

end Stackwright
