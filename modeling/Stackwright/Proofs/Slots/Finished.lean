import Stackwright.Proofs.Builder.Scripts
import Stackwright.Proofs.Slots.Bounds

/-! # Slots of finished procedures

A client of a script hands in the locals that it was answered, and these are its session's own. So in each
procedure that a script builds every store fits its slot, and **its runs keep all slots to their kinds as
long as no body strays**.

* **`Builder.Owning b h`** — the session of a builder is fitted, and what the client holds is its own.
* **`Builder.slots_of_script`** — the slots of what a script builds keep their kinds. -/

namespace Stackwright

/-- The locals of a renamed operand are those in the place of its locals. -/
theorem Operand.locals_rename (ρ : Renaming) (o : Operand) :
    (o.rename ρ).locals = o.locals.map ρ.locals := by
  cases o <;> rfl

/-- So are the locals of a renamed operation. -/
theorem Operation.locals_rename (ρ : Renaming) (o : Operation) :
    (o.rename ρ).locals = o.locals.map ρ.locals := by
  have hmany : ∀ os : List Operand, (os.map (Operand.rename ρ)).flatMap Operand.locals =
      (os.flatMap Operand.locals).map ρ.locals := by
    intro os
    induction os with
    | nil => rfl
    | cons o os ih => simp [ih, Operand.locals_rename]
  cases o with
  | callWith r m os => cases r <;> simp [rename, locals, hmany, Operand.locals_rename]
  | openFor l a b => cases l <;> simp [rename, locals, Operand.locals_rename]
  | _ => simp [rename, locals, hmany, Operand.locals_rename]

/-- A client names own locals if it holds own locals. -/
theorem Holdings.owns_of_covers {h : Holdings} {o : Operation} {s : Session} (ho : h.Covers o)
    (howns : ∀ l ∈ h.locals, s.Owns l) : ∀ l ∈ (o.rename h.meaning).locals, s.Owns l := by
  intro l hl
  rw [Operation.locals_rename] at hl
  obtain ⟨l₀, hl₀, rfl⟩ := List.mem_map.1 hl
  have hlt := ho.1 l₀ hl₀
  show s.Owns (h.locals.getD l₀.index l₀)
  rw [List.getD_eq_getElem _ _ hlt]
  exact howns _ (List.getElem_mem hlt)

/-- What is kept is what was held or what is answered. -/
theorem Holdings.locals_keep (h : Holdings) (a : Answer) : (h.keep a).locals = h.locals ++ a.locals := by
  cases a <;> simp [keep, Answer.locals]

namespace Builder

variable {b : Builder} {h : Holdings} {s s' : Session} {o : Operation} {p : Procedure}

/-- The session of a builder is sound and fitted, and what the client **holds is its own**. -/
structure Owning (b : Builder) (h : Holdings) : Prop where
  /-- The session is sound. -/
  sound : ∀ s, b.state = .building s → s.Sound
  /-- The session has recorded nothing strange. -/
  fitted : ∀ s, b.state = .building s → s.Fitted fun _ => False
  /-- The locals that the client holds are the session's own. -/
  owns : ∀ s, b.state = .building s → ∀ l ∈ h.locals, s.Owns l
  /-- The client does not hold the label at the end. -/
  inside : h.Inside

/-- A **new** builder owns all that its client holds. -/
theorem owning_begin (number : Nat) (name : String) (signature : Signature) (sink : Sink)
    (level : TraceDetail) : (begin number name signature sink level).builder.Owning {} := by
  refine ⟨fun s hs => ?_, fun _ => begin_fitted number name signature sink level,
    fun _ _ l hl => absurd hl List.not_mem_nil,
    fun _ hl => absurd hl List.not_mem_nil⟩
  obtain ⟨s₀, hs₀, hsound⟩ := begin_building number name signature sink level
  rw [hs₀] at hs
  cases hs
  exact hsound

/-- An operation **on what the client holds** leaves a builder that owns what the client then holds. -/
theorem Owning.perform (hb : b.Owning h) (ho : h.Covers o) :
    (b.perform (o.rename h.meaning)).builder.Owning
      (h.behind (b.perform (o.rename h.meaning)).result) := by
  have hin := hb.inside.handed ho
  have hnext : ∀ s', (b.perform (o.rename h.meaning)).builder.state = .building s' →
      (s'.Fitted fun _ => False) ∧
        ∀ l ∈ (h.behind (b.perform (o.rename h.meaning)).result).locals, s'.Owns l := by
    intro s' hs'
    cases ha : (b.perform (o.rename h.meaning)).result with
    | error e => exact absurd hs' (not_building_of_error ha s')
    | ok a =>
      obtain ⟨s, hs⟩ := building_of_perform ha
      obtain ⟨hgo, hanswer⟩ := fitted_perform hs (hb.fitted s hs)
        (fun l hl => .inl (Holdings.owns_of_covers ho (hb.owns s hs) l hl)) ha hs'
      refine ⟨hgo.fitted, fun l hl => ?_⟩
      rw [show h.behind (.ok a) = h.keep a from rfl, Holdings.locals_keep] at hl
      exact (List.mem_append.1 hl).elim (fun hl => hgo.owns l (hb.owns s hs l hl))
        fun hl => Session.serves_none_iff.1 (hanswer l hl)
  exact ⟨sound_perform hb.sound hin, fun s' hs' => (hnext s' hs').1, fun s' hs' => (hnext s' hs').2,
    hb.inside.behind fun _ ha => inside_perform hb.sound hin ha⟩

/-- What such a session **links to** stores what fits. -/
theorem Owning.fitting (hb : b.Owning h) (hp : b.finish.result = .ok p) : p.Fitting ∧ p.Closed := by
  obtain ⟨s, hs⟩ := building_of_finish hp
  obtain ⟨hprovides, hclosed⟩ := provides_of_finish hs (hb.sound s hs) (hb.fitted s hs) hp
  exact ⟨fun n o hn => ((hprovides n o hn).resolve_right id).takes, hclosed⟩

/-- Behind the end no builder takes calls. -/
theorem not_building_finish (s : Session) : b.finish.builder.state ≠ .building s := by
  cases hres : (b.submit Emit.finish).result with
  | ok p =>
    rw [finish_of_ok hres]
    exact nofun
  | error e =>
    rw [finish_of_error hres]
    exact not_building_of_error hres s

/-- Each procedure that a script **builds** stores what fits, and no jump leaves its code. -/
theorem Owning.built {cs : List Call} {r : Outcome Reply} (hb : b.Owning h) (hr : r ∈ b.play h cs)
    (hp : r.result = .ok (.built p)) : p.Fitting ∧ p.Closed := by
  -- the builder owns what it handed out before each call; only an end builds
  induction cs generalizing b h with
  | nil => exact absurd hr List.not_mem_nil
  | cons c cs ih =>
    cases c with
    | finish =>
      rcases List.mem_cons.1 hr with rfl | hr
      · change Reply.built <$> b.finish.result = _ at hp
        cases hres : b.finish.result with
        | error e =>
          rw [hres] at hp
          cases hp
        | ok p' =>
          rw [hres] at hp
          cases hp
          exact hb.fitting hres
      · have hnone := not_building_finish (b := b)
        exact ih ⟨fun s hs => absurd hs (hnone s), fun s hs => absurd hs (hnone s),
          fun s hs => absurd hs (hnone s), hb.inside⟩ hr
    | perform o =>
      rw [play] at hr
      split at hr
      · rename_i ho
        rcases List.mem_cons.1 hr with rfl | hr
        · change Reply.answered <$> (b.perform (o.rename h.meaning)).result = _ at hp
          cases hres : (b.perform (o.rename h.meaning)).result with
          | error e =>
            rw [hres] at hp
            cases hp
          | ok a =>
            rw [hres] at hp
            cases hp
        · exact ih (hb.perform ho) hr
      · exact absurd hr List.not_mem_nil

/-- **Slots of finished procedures.** In each procedure that a script builds, at every trace level, and in
each of its runs whose writes through addresses name types of the kind of the slot they write: all slots
keep to their declared kinds after every step exactly if no call that the run gets to has a body that
leaves a scalar of another kind in a slot. A load from a slot that keeps its kind is in the range of it,
and a returned scalar is always of the kind of the return type. -/
theorem slots_of_script (number : Nat) (name : String) (signature : Signature) (sink : Sink)
    (level : TraceDetail) (cs : List Call) {r : Outcome Reply}
    (hr : r ∈ script number name signature sink level cs) (hp : r.result = .ok (.built p))
    (args : List Value) (world : World) (ha : p.Aimed ⟨p.frame args, world⟩) :
    ((∀ n m, p.Visits ⟨p.frame args, world⟩ n m → p.Kinded m) ↔
        ∀ n m, p.Visits ⟨p.frame args, world⟩ n m → ¬ p.Strays n m) ∧
      (∀ m m' l k v, p.Kinded m → p.slotKind? l = some k → (Exec.load l).run m = .ok (.scalar v) m' →
        k.Spans v.toNumber) ∧
      ∀ fuel world' t k v, p.signature.ret = some t → t.storedAs? = some k →
        (p.call fuel args).run world = .ok (.scalar v) world' → v.kind = k ∧ k.Spans v.toNumber := by
  have hbuilt : p.Fitting ∧ p.Closed := by
    rcases List.mem_cons.1 hr with rfl | hr
    · change (fun _ => Reply.begun) <$> (begin number name signature sink level).result = _ at hp
      cases hres : (begin number name signature sink level).result with
      | error e =>
        rw [hres] at hp
        cases hp
      | ok u =>
        rw [hres] at hp
        cases hp
    · exact (owning_begin number name signature sink level).built hr hp
  obtain ⟨hfitting, hclosed⟩ := hbuilt
  refine ⟨Procedure.kinded_visits_iff hfitting ha (p.kinded_start args world),
    fun m m' l k v hm hk hload => hm.spans hk hload, fun fuel world' t k v ht hk hcall => ?_⟩
  have hkind := hclosed.kind_of_call ht hk hcall
  exact ⟨hkind, hkind ▸ v.spans⟩

/-- A method of the 8-bit words that leaves a 32-bit word in the place of its receiver. -/
def widen : Method where
  owner := .primitive .i8
  name := "widen"
  params := []
  ret := none
  isStatic := false
  body := fun _ => pure (.null, [.ofInt32 300])

/-- The calls that emit it on the first argument. -/
def widenFirst : List Call :=
  [.perform (.callWith (some (.argument ⟨0, .primitive .i8⟩)) widen []), .finish]

/-- What they build. -/
def widened : Procedure where
  name := "f"
  signature := ⟨[.primitive .i8], none⟩
  locals := []
  code := #[.op (.addressArg 0), .op (.call widen), .ret]

/-- The session behind the first of them. -/
def widening : Session :=
  { Session.fresh 1 "f" ⟨[.primitive .i8], none⟩ .log with
    code := #[.op (.addressArg 0), .op (.call widen)] }

theorem complete_widening : widening.Complete := by
  rintro l ⟨i, hi, hl⟩
  simp only [widening, List.mem_toArray, List.mem_cons, List.not_mem_nil, or_false] at hi
  rcases hi with rfl | rfl <;> exact absurd hl List.not_mem_nil

theorem finish_widened : ((begin 1 "f" ⟨[.primitive .i8], none⟩ .log .off).builder.perform
    (.callWith (some (.argument ⟨0, .primitive .i8⟩)) widen [])).builder.finish.result = .ok widened := by
  have hcovers : Holdings.Covers {}
      (.callWith (some (.argument ⟨0, .primitive .i8⟩)) widen []) := by decide
  have hown := (owning_begin 1 "f" ⟨[.primitive .i8], none⟩ .log .off).perform hcovers
  obtain ⟨code, hrun, hlinked, -⟩ := Emit.run_finish_complete (t := .ofLevel .off)
    (hown.sound widening rfl) rfl complete_widening
  have hcode : Linked (widening.ended (.ofLevel .off)).labels (widening.ended (.ofLevel .off)).code
      widened.code :=
    linked_iff.2 (.cons rfl (.cons rfl (.cons rfl .nil)))
  obtain rfl : widened.code = code := Except.ok.inj (hcode.symm.trans hlinked)
  exact (finish_ok rfl hrun).1

theorem built_widened :
    ∃ r ∈ script 1 "f" ⟨[.primitive .i8], none⟩ .log .off widenFirst, r.result = .ok (.built widened) :=
  ⟨_, .tail _ (.tail _ (.head _)), congrArg (Except.map Reply.built) finish_widened⟩

/-- It writes through no address. -/
theorem aimed_widened (start : Machine) : widened.Aimed start := by
  rintro n m o - hn
  have hmem : Instruction.op o ∈ widened.code := Array.mem_of_getElem? hn
  simp only [widened, List.mem_toArray, List.mem_cons, Instruction.op.injEq] at hmem
  rcases hmem with rfl | rfl | h
  · trivial
  · trivial
  · simp at h

/-- The procedure comes to hold a 32-bit word in its 8-bit argument. -/
theorem slots_of_script_widened :
    (∃ r ∈ script 1 "f" ⟨[.primitive .i8], none⟩ .log .off widenFirst,
        r.result = .ok (.built widened)) ∧
      widened.Aimed ⟨widened.frame [.scalar (.word .i8 5)], {}⟩ ∧
      ¬ ∀ n m, widened.Visits ⟨widened.frame [.scalar (.word .i8 5)], {}⟩ n m → widened.Kinded m := by
  obtain ⟨r, hr, hp⟩ := built_widened
  have ha := aimed_widened ⟨widened.frame [.scalar (.word .i8 5)], {}⟩
  obtain ⟨hiff, -⟩ := slots_of_script 1 "f" ⟨[.primitive .i8], none⟩ .log .off widenFirst hr hp
    [.scalar (.word .i8 5)] {} ha
  refine ⟨⟨r, hr, hp⟩, ha, fun hkinded => hiff.1 hkinded 1 _ (.next .start rfl rfl) ?_⟩
  refine ⟨widen, .argument 0, .word .i8, .word .i32 300, _, rfl, rfl, ?_, rfl, nofun⟩
  exact ⟨_, [], [], _, [], _, rfl, rfl, rfl, rfl, rfl⟩

end Builder

end Stackwright
