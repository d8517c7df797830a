import Stackwright.Proofs.Structure.Alternatives
import Stackwright.Proofs.Structure.Programs

/-! # Structured programs build

Every well-formed structured program leads to a procedure, at every level. Where a program stands, the
session is balanced, and each construct of the program leaves it so: what the opening call enters, the
closing call settles. At the end nothing is open and nothing is owed.

* **`Program.Plays g program`** — no call is refused, and the session is left as it was found.
* **`Program.plays`** — so it is of every program, by induction over its syntax.
* **`Builder.structured_builds`** — well-formed programs build, and no alternative follows the last one. -/

namespace Stackwright

variable {g : Signature} {os outer front : List Construct} {ps labels : List Label} {loops : List LoopHandle}

theorem Session.Balanced.delivered {s : Session} (h : s.Balanced g os ps) :
    Session.Balanced g os ps { s with notices := #[] } :=
  h.spared (spares_delivered h.fit)

/-! ## Emission calls -/

namespace Emit

/-- The zero of a type is always loaded. -/
theorem accepted_loadZero (t : Ty) : Accepted g (loadZero t) := by
  unfold loadZero
  split
  · exact accepted_traced _ _
  · exact accepted_traced _ _
  · exact accepted_traced _ _
  · rename_i k _
    cases k <;> exact accepted_traced _ _
  · exact accepted_traced _ _
  · split
    · -- the local that holds the zero of a struct is loaded by its address
      rename_i hvalue
      have haddress : ∀ n, loadByAddress (.variable ⟨n, t⟩) = loadLocalAddress ⟨n, t⟩ := fun _ => if_pos hvalue
      rw [Accepted, run_bind, run_newLocal_silent]
      dsimp only
      rw [haddress]
      exact ⟨_, _, rfl⟩
    · exact accepted_traced _ _

end Emit

namespace Operation

open Emit

theorem ensures_done {e : Emit Unit} {P R : Session → Prop} (h : e.Ensures P fun _ => R) :
    (perform.done e).Ensures P fun _ => R :=
  h.bind fun _ => (ensures_pure _).mono (fun _ hs => hs) fun _ _ hs => hs.2

/-- A counted loop answers its handle. -/
theorem opens_openFor {index : Option Local} {start bound : Operand}
    (hstart : index.isSome → Accepted g (Emit.load start)) :
    Opens g (perform (.openFor index start bound)) fun a c => ∃ loop : LoopState,
      a = .loop loop.handle ∧ loop.slot = index ∧ loop.bound = bound ∧ c = .counted loop := by
  intro cs bs ls
  refine (Emit.opens_openFor hstart cs bs ls).map _ fun a s hs => ?_
  obtain ⟨c, ⟨loop, rfl, hslot, hbound, -, hc⟩, hs⟩ := hs
  exact ⟨c, ⟨loop, rfl, hslot, hbound, hc⟩, hs⟩

/-- So does a loop over an enumerator. -/
theorem opens_openEach {l enumerator : Local} {element : Ty} {getCurrent : Method}
    (hcurrent : Accepted g (Emit.callWith (some (.variable enumerator)) getCurrent []))
    (hconvert : Accepted g (Emit.convertTop element l.type)) :
    Opens g (perform (.openEach l element enumerator getCurrent)) fun a c => ∃ loop : LoopState,
      a = .loop loop.handle ∧ loop.bound = .variable enumerator ∧ c = .enumerated loop := by
  intro cs bs ls
  refine (Emit.opens_openEach hcurrent hconvert cs bs ls).map _ fun a s hs => ?_
  obtain ⟨c, ⟨loop, rfl, hbound, -, hc⟩, hs⟩ := hs
  exact ⟨c, ⟨loop, rfl, hbound, hc⟩, hs⟩

/-- A switch answers the labels of its cases, which are then to come. -/
theorem balanced_openSwitch (cases : Nat) :
    (perform (.openSwitch cases)).Ensures (Session.Balanced g os ps) fun a s => ∃ ends : Label × Label,
      a.issued.length = cases ∧ s.Balanced g (.switch ends.1 ends.2 false :: os) (a.issued ++ ps) := by
  refine (Emit.balanced_openSwitch cases).map _ fun labels s hs => ?_
  obtain ⟨default, finish, hlen, hs⟩ := hs
  exact ⟨(default, finish), hlen, hs⟩

end Operation

namespace Opener

open Emit

/-- A conditional is opened if what is loaded and converted for it is accepted. -/
theorem opens_perform (opener : Opener) (h : ∀ e ∈ opener.loads, Accepted g e) :
    Opens g opener.operation.perform fun _ => IsBranching := by
  have hdone : ∀ {e : Emit Unit}, Opens g e (fun _ => IsBranching) →
      Opens g (Operation.perform.done e) fun _ => IsBranching :=
    fun he cs bs ls => Operation.ensures_done (he cs bs ls)
  cases opener with
  | ifTrue => exact hdone opens_openIfTrue
  | ifFalse => exact hdone opens_openIfFalse
  | compared c => exact hdone (opens_openIf c)
  | operands a c b =>
    refine hdone (((sparing_load a).steady (h _ ?_)).opens fun _ =>
      ((sparing_load b).steady (h _ ?_)).opens fun _ => opens_openIf c)
    · exact List.mem_cons_self
    · exact List.mem_cons_of_mem _ List.mem_cons_self
  | notZero o =>
    have hzero : Steady g (loadZero o.type) := (sparing_loadZero _).steady (accepted_loadZero _)
    refine hdone ?_
    unfold openIfNotZero
    -- a structure is compared as an object, so its loads box it
    by_cases hstruct : o.type.isStruct
    · rw [loads, if_pos hstruct] at h
      have hload : Steady g (load o) := (sparing_load o).steady (h _ List.mem_cons_self)
      have hbox : Steady g (convertTop o.type .object) :=
        (sparing_convertTop _ _).steady (h _ (List.mem_cons_of_mem _ List.mem_cons_self))
      simp only [hstruct, if_true]
      exact hzero.opens fun _ => hbox.opens fun _ => hload.opens fun _ => hbox.opens fun _ =>
        (steady_call _).opens fun _ => opens_openIfFalse
    · rw [loads, if_neg hstruct] at h
      have hload : Steady g (load o) := (sparing_load o).steady (h _ List.mem_cons_self)
      simp only [hstruct]
      exact hzero.opens fun _ => hload.opens fun _ => opens_openIf _
  | notEmpty l => exact hdone ((steady_loadTextLength l).opens fun _ => opens_openIf _)

end Opener

/-- A break out of an enclosing loop. -/
theorem Exit.balanced_perform (how : Exit) {h : LoopHandle} (hos : ∃ c ∈ os, c.isLoop h) :
    (how.operation h).perform.Ensures (Session.Balanced g os ps) fun _ => Session.Balanced g os ps := by
  cases how with
  | always => exact Operation.ensures_done (Emit.balanced_leave hos fun _ => rfl)
  | ifTrue => exact Operation.ensures_done (Emit.balanced_leave hos fun _ => rfl)
  | ifFalse => exact Operation.ensures_done (Emit.balanced_leave hos fun _ => rfl)

/-! ## Playing a program -/

/-- The constructs that a program stands in directly, where it has some number of default sections. -/
def Place.Front : Place → Nat → List Construct → Prop
  | .block, _, front => front = []
  | .alternatives, _, front => ∃ otherwise finish, otherwise ≠ finish ∧ front = [.conditional otherwise finish]
  | .last, _, front => ∃ finish, front = [.conditional finish finish]
  | .sections, n, front => ∃ default finish given, front = [.switch default finish given] ∧ n + given.toNat ≤ 1

/-- The constructs that a program leaves where it stood. -/
def Place.Frame : Place → List Construct → Prop
  | .block, front => front = []
  | .alternatives, front | .last, front => ∃ otherwise finish, front = [.conditional otherwise finish]
  | .sections, front => ∃ default finish given, front = [.switch default finish given]

theorem Place.Front.frame {p : Place} {n : Nat} (h : p.Front n front) : p.Frame front := by
  cases p with
  | block => exact h
  | alternatives =>
    obtain ⟨o, f, -, rfl⟩ := h
    exact ⟨o, f, rfl⟩
  | last =>
    obtain ⟨f, rfl⟩ := h
    exact ⟨f, f, rfl⟩
  | sections =>
    obtain ⟨d, f, given, rfl, -⟩ := h
    exact ⟨d, f, given, rfl⟩

namespace Client

/-- Behind a call that leaves the session balanced, the notices are handed over. -/
theorem ensures_ask_balanced {o : Operation} {os' : List Construct} {ps' : List Label} (ho : o.handed = [])
    (h : o.perform.Ensures (Session.Balanced g os ps) fun _ => Session.Balanced g os' ps') :
    (ask o).Ensures (Session.Balanced g os ps) fun _ => Session.Balanced g os' ps' :=
  ensures_ask h (fun _ _ _ hl => absurd (ho ▸ hl) List.not_mem_nil) fun _ _ hs => hs.delivered

/-- So they are where the constructs depend on the answer. -/
theorem ensures_ask_exists {o : Operation} {ι : Type} {φ : Answer → ι → Prop} {os' : ι → List Construct}
    {ps' : Answer → List Label} (ho : o.handed = [])
    (h : o.perform.Ensures (Session.Balanced g os ps) fun a s => ∃ i, φ a i ∧ s.Balanced g (os' i) (ps' a)) :
    (ask o).Ensures (Session.Balanced g os ps) fun a s => ∃ i, φ a i ∧ s.Balanced g (os' i) (ps' a) := by
  refine ensures_ask h (fun _ _ _ hl => absurd (ho ▸ hl) List.not_mem_nil) fun a s hs => ?_
  obtain ⟨i, hi, hs⟩ := hs
  exact ⟨i, hi, hs.delivered⟩

end Client

/-- Each of the loops is open among constructs. -/
def Enclosed (loops : List LoopHandle) (os : List Construct) : Prop := ∀ h ∈ loops, ∃ c ∈ os, c.isLoop h

/-- Further constructs are opened inside. -/
theorem Enclosed.append (h : Enclosed loops os) (front : List Construct) : Enclosed loops (front ++ os) := by
  intro i hi
  obtain ⟨c, hc, hloop⟩ := h i hi
  exact ⟨c, List.mem_append_right _ hc, hloop⟩

/-- A loop is opened inside. -/
theorem Enclosed.loop (h : Enclosed loops os) {c : Construct} {i : LoopHandle} (hc : c.isLoop i) :
    Enclosed (i :: loops) (c.bare :: os) := by
  intro j hj
  rcases List.mem_cons.1 hj with rfl | hj
  · exact ⟨c.bare, List.mem_cons_self, by rwa [Construct.isLoop_bare]⟩
  · exact h.append [c.bare] j hj

namespace Program

open Client

variable {place : Place} {inner test : Program .block} {arms : Program .alternatives}
  {parts : Program .sections} {rest : Program place}

/-- What is shown of every program by induction: no call is refused, and the session is left as it was
found, but for the labels of the cases that stand directly in the program, which are no longer to come. -/
def Plays (g : Signature) (program : Program place) : Prop :=
  ∀ (loops : List LoopHandle) (labels : List Label) (outer front : List Construct) (ps : List Label),
    program.WellFormed g loops.length → Enclosed loops outer → place.Front program.defaults front →
      (program.play loops labels).Ensures
        (Session.Balanced g (front ++ outer) (program.cases.filterMap (labels[·]?) ++ ps)) fun _ s =>
          ∃ front', place.Frame front' ∧ s.Balanced g (front' ++ outer) ps

/-- Outside of a switch no case is to come. -/
theorem Plays.outside {program : Program place} (h : program.Plays g) (hp : place ≠ .sections)
    (hwell : program.WellFormed g loops.length) (hloops : Enclosed loops outer)
    (hfront : place.Front program.defaults front) :
    (program.play loops []).Ensures (Session.Balanced g (front ++ outer) ps) fun _ s =>
      ∃ front', place.Frame front' ∧ s.Balanced g (front' ++ outer) ps := by
  have hplay := h loops [] outer front ps hwell hloops hfront
  rw [program.cases_eq_nil hp] at hplay
  exact hplay

/-- A program that may stand anywhere leaves the constructs as they are. -/
theorem Plays.block (h : inner.Plays g) (hloops : Enclosed loops os) (hwell : inner.WellFormed g loops.length) :
    (inner.play loops []).Ensures (Session.Balanced g os ps) fun _ => Session.Balanced g os ps := by
  refine (h.outside nofun hwell hloops rfl).mono (fun _ hs => hs) fun _ s hs => ?_
  obtain ⟨_, rfl, hs⟩ := hs
  exact hs

/-! ### One construct -/

theorem plays_done : (done : Program place).Plays g :=
  fun _ _ _ front _ _ _ hfront => (ensures_pure ()).mono (fun _ hs => hs) fun _ _ hs => ⟨front, hfront.frame, hs⟩

theorem plays_call {o : Operation} (hrest : rest.Plays g) : (call o rest).Plays g := by
  rintro loops labels outer front ps ⟨ho, hacc, hwell⟩ hloops hfront
  have hsteady : Emit.Steady g o.perform := by
    rcases ho with ho | ⟨t, rfl⟩
    · exact (Operation.sparing_perform ho).steady hacc
    · exact fun cs bs ls => Operation.ensures_done (Emit.steady_toFullText t cs bs ls)
  have hhanded : o.handed = [] := by
    rcases ho with ho | ⟨t, rfl⟩
    · cases o <;> first | rfl | cases ho
    · rfl
  exact (ensures_ask_balanced hhanded hsteady.balanced).bind fun _ => hrest _ _ _ _ _ hwell hloops hfront

theorem plays_leave {how : Exit} {out : Nat} (hrest : rest.Plays g) : (leave how out rest).Plays g := by
  rintro loops labels outer front ps ⟨hout, hwell⟩ hloops hfront
  have hloop : ∃ c ∈ front ++ outer, c.isLoop loops[out] := hloops.append front _ (List.getElem_mem hout)
  have hhanded : (how.operation loops[out]).handed = [] := by
    cases how <;> rfl
  rw [play, List.getElem?_eq_getElem hout]
  exact (ensures_ask_balanced hhanded (how.balanced_perform hloop)).bind fun _ =>
    hrest _ _ _ _ _ hwell hloops hfront

theorem plays_conditional {opener : Opener} (harms : arms.Plays g) (hrest : rest.Plays g) :
    (conditional opener arms rest).Plays g := by
  rintro loops labels outer front ps ⟨hloads, hwell, hwell'⟩ hloops hfront
  refine Ensures.bind (ensures_ask_exists (by cases opener <;> rfl) (opener.opens_perform hloads).balanced)
    fun _ => Ensures.exists fun c => Ensures.and fun hc => ?_
  obtain ⟨o, f, hne, rfl⟩ := hc
  refine Ensures.bind (harms.outside nofun hwell (hloops.append front) ⟨o, f, hne, rfl⟩) fun _ =>
    Ensures.exists fun front' => Ensures.and fun hframe => ?_
  obtain ⟨o', f', rfl⟩ := hframe
  refine Ensures.bind (ensures_ask_balanced rfl (Operation.ensures_done (Emit.Closes.balanced fun c hc => ?_)))
    fun _ => hrest _ _ _ _ _ hwell' hloops hfront
  rw [Construct.bare_eq_conditional.1 hc]
  exact Emit.closes_closeIf o' f'

theorem plays_counted {index : Option Local} {start bound : Operand} (hinner : inner.Plays g)
    (hrest : rest.Plays g) : (counted index start bound inner rest).Plays g := by
  rintro loops labels outer front ps ⟨hloads, hwell, hwell'⟩ hloops hfront
  refine Ensures.bind (ensures_ask_exists rfl (Operation.opens_openFor fun h => (hloads h).1).balanced)
    fun a => Ensures.exists fun c => Ensures.and fun hc => ?_
  obtain ⟨loop, rfl, hslot, hbound, rfl⟩ := hc
  have hencloses : Enclosed (loop.handle :: loops) ((Construct.counted loop).bare :: (front ++ outer)) :=
    (hloops.append front).loop (Construct.isLoop_iff.2 ⟨loop, rfl, .inl rfl⟩)
  refine Ensures.bind (hinner.block hencloses hwell) fun _ => ?_
  refine Ensures.bind (ensures_ask_balanced rfl (Operation.ensures_done (Emit.Closes.balanced fun c hc => ?_)))
    fun _ => hrest _ _ _ _ _ hwell' hloops hfront
  obtain ⟨exit, rfl⟩ := Construct.bare_eq_counted hc
  exact Emit.closes_closeFor fun h => hbound ▸ (hloads (hslot ▸ h)).2

theorem plays_enumerated {slot enumerator : Local} {element : Ty} {getCurrent moveNext : Method}
    (hinner : inner.Plays g) (hrest : rest.Plays g) :
    (enumerated slot element enumerator getCurrent moveNext inner rest).Plays g := by
  rintro loops labels outer front ps ⟨⟨hcurrent, hconvert, hnext⟩, hwell, hwell'⟩ hloops hfront
  refine Ensures.bind (ensures_ask_exists rfl (Operation.opens_openEach hcurrent hconvert).balanced)
    fun a => Ensures.exists fun c => Ensures.and fun hc => ?_
  obtain ⟨loop, rfl, hbound, rfl⟩ := hc
  have hencloses : Enclosed (loop.handle :: loops) ((Construct.enumerated loop).bare :: (front ++ outer)) :=
    (hloops.append front).loop (Construct.isLoop_iff.2 ⟨loop, rfl, .inr rfl⟩)
  refine Ensures.bind (hinner.block hencloses hwell) fun _ => ?_
  refine Ensures.bind (ensures_ask_balanced rfl (Operation.ensures_done (Emit.Closes.balanced fun c hc => ?_)))
    fun _ => hrest _ _ _ _ _ hwell' hloops hfront
  obtain ⟨exit, rfl⟩ := Construct.bare_eq_enumerated hc
  exact Emit.closes_closeEach (hbound ▸ hnext)

theorem plays_whileLoop {comparison : Comparison} (htest : test.Plays g) (hinner : inner.Plays g)
    (hrest : rest.Plays g) : (whileLoop test comparison inner rest).Plays g := by
  rintro loops labels outer front ps ⟨hwell, hwell', hwell''⟩ hloops hfront
  refine Ensures.bind (ensures_ask_exists rfl (Operation.ensures_done Emit.opens_openWhile.balanced))
    fun _ => Ensures.exists fun c => Ensures.and fun hc => ?_
  obtain ⟨head, rfl⟩ := hc
  refine Ensures.bind (htest.block ((hloops.append front).append [_]) hwell) fun _ => ?_
  refine Ensures.bind (ensures_ask_exists rfl (Operation.ensures_done (Emit.balanced_openWhileBody comparison)))
    fun _ => Ensures.exists fun c => Ensures.and fun hc => ?_
  obtain ⟨o, f, -, rfl⟩ := hc
  refine Ensures.bind (hinner.block ((hloops.append front).append [_, _]) hwell') fun _ => ?_
  exact Ensures.bind (ensures_ask_balanced rfl (Operation.ensures_done Emit.balanced_closeWhile)) fun _ =>
    hrest _ _ _ _ _ hwell'' hloops hfront

/-- The labels at all positions are all labels. -/
theorem filterMap_range (labels : List Label) :
    (List.range labels.length).filterMap (labels[·]?) = labels := by
  induction labels with
  | nil => rfl
  | cons l ls ih =>
    rw [List.length_cons, List.range_succ_eq_map, List.filterMap_cons, List.filterMap_map]
    exact congrArg (l :: ·) ih

theorem plays_switch {cases : Nat} (hparts : parts.Plays g) (hrest : rest.Plays g) :
    (switch cases parts rest).Plays g := by
  rintro loops labels outer front ps ⟨⟨hcases, hdefaults⟩, hwell, hwell'⟩ hloops hfront
  refine Ensures.bind (ensures_ask_exists rfl (Operation.balanced_openSwitch cases)) fun a =>
    Ensures.exists fun ends => Ensures.and fun hlen => ?_
  -- each label is that of one of the cases in the switch
  have hlabels : a.issued.Perm (parts.cases.filterMap (a.issued[·]?)) := by
    have hperm := hcases.symm.filterMap (a.issued[·]?)
    rwa [← hlen, filterMap_range] at hperm
  have hplay := (hparts loops a.issued (front ++ outer) [.switch ends.1 ends.2 false]
    (rest.cases.filterMap (labels[·]?) ++ ps) hwell (hloops.append front) ⟨_, _, _, rfl, hdefaults⟩).mono
      (fun _ hs => Session.Balanced.perm hs (hlabels.append_right _)) fun _ _ hs => hs
  refine Ensures.bind hplay fun _ => Ensures.exists fun front' => Ensures.and fun hframe => ?_
  obtain ⟨d, f, given, rfl⟩ := hframe
  refine Ensures.bind (ensures_ask_balanced rfl (Operation.ensures_done (Emit.Closes.balanced fun c hc => ?_)))
    fun _ => hrest _ _ _ _ _ hwell' hloops hfront
  rw [Construct.bare_eq_switch.1 hc]
  exact Emit.closes_closeSwitch d f given

/-! ### Alternatives and sections -/

theorem plays_elseIf {left right : Operand} {comparison : Comparison} (harms : arms.Plays g) :
    (elseIf left comparison right arms).Plays g := by
  rintro loops labels outer front ps ⟨⟨hleft, hright⟩, hwell⟩ hloops ⟨o, f, hne, rfl⟩
  refine Ensures.bind (ensures_ask_exists rfl (Operation.ensures_done
    ((Emit.replaces_openElseIf comparison hleft hright hne).balanced fun _ => Construct.bare_eq_conditional.1)))
    fun _ => Ensures.exists fun c => Ensures.and fun hc => ?_
  obtain ⟨o', hne', rfl⟩ := hc
  exact harms _ _ _ _ _ hwell hloops ⟨o', f, hne', rfl⟩

theorem plays_elseIfEmpty {slot : Local} (harms : arms.Plays g) : (elseIfEmpty slot arms).Plays g := by
  rintro loops labels outer front ps hwell hloops ⟨o, f, hne, rfl⟩
  refine Ensures.bind (ensures_ask_exists rfl (Operation.ensures_done
    ((Emit.replaces_openElseIfEmpty slot hne).balanced fun _ => Construct.bare_eq_conditional.1)))
    fun _ => Ensures.exists fun c => Ensures.and fun hc => ?_
  obtain ⟨o', hne', rfl⟩ := hc
  exact harms _ _ _ _ _ hwell hloops ⟨o', f, hne', rfl⟩

theorem plays_otherwise {last : Program .last} (hlast : last.Plays g) : (otherwise last).Plays g := by
  rintro loops labels outer front ps hwell hloops ⟨o, f, hne, rfl⟩
  refine Ensures.bind (ensures_ask_exists rfl (Operation.ensures_done
    ((Emit.replaces_openElse hne).balanced fun _ => Construct.bare_eq_conditional.1)))
    fun _ => Ensures.exists fun c => Ensures.and fun hc => ?_
  obtain rfl := hc
  exact hlast _ _ _ _ _ hwell hloops ⟨f, rfl⟩

theorem plays_case {i : Nat} {name : String} (hparts : parts.Plays g) : (case i name parts).Plays g := by
  intro loops labels outer front ps hwell hloops hfront
  rw [play, cases, List.filterMap_cons]
  cases labels[i]? with
  | none => exact hparts _ _ _ _ _ hwell hloops hfront
  | some l =>
    refine Ensures.bind (ensures_ask (Operation.ensures_done (Emit.balanced_openCase l name)) (fun s hs m hm => ?_)
      fun _ _ hs => hs.delivered) fun _ => hparts _ _ _ _ _ hwell hloops hfront
    obtain rfl := List.mem_singleton.1 hm
    exact hs.inside List.mem_cons_self

theorem plays_endCase (hparts : parts.Plays g) : (endCase parts).Plays g := by
  rintro loops labels outer front ps hwell hloops ⟨d, f, given, rfl, hgiven⟩
  refine Ensures.bind (ensures_ask_exists rfl (Operation.ensures_done
    ((Emit.replaces_closeCase d f given).balanced fun _ => Construct.bare_eq_switch.1)))
    fun _ => Ensures.exists fun c => Ensures.and fun hc => ?_
  obtain rfl := hc
  exact hparts _ _ _ _ _ hwell hloops ⟨d, f, given, rfl, hgiven⟩

theorem plays_default (hparts : parts.Plays g) : (default parts).Plays g := by
  rintro loops labels outer front ps hwell hloops ⟨d, f, given, rfl, hgiven⟩
  -- no default section was given before this one
  obtain ⟨rfl, hnone⟩ : given = false ∧ parts.defaults = 0 := by
    rw [defaults] at hgiven
    cases given with
    | false => exact ⟨rfl, by simp only [Bool.toNat_false] at hgiven; omega⟩
    | true => simp only [Bool.toNat_true] at hgiven; omega
  refine Ensures.bind (ensures_ask_exists rfl (Operation.ensures_done
    ((Emit.replaces_openDefault d f).balanced fun _ => Construct.bare_eq_switch.1)))
    fun _ => Ensures.exists fun c => Ensures.and fun hc => ?_
  obtain rfl := hc
  exact hparts _ _ _ _ _ hwell hloops ⟨d, f, true, rfl, by rw [hnone]; decide⟩

/-! ### Every program -/

/-- **No call of a well-formed program is refused.** -/
theorem plays (program : Program place) : program.Plays g := by
  induction program with
  | done => exact plays_done
  | call o rest ih => exact plays_call ih
  | leave how out rest ih => exact plays_leave ih
  | conditional opener arms rest iharms ih => exact plays_conditional iharms ih
  | counted index start bound inner rest ihinner ih => exact plays_counted ihinner ih
  | enumerated slot element enumerator getCurrent moveNext inner rest ihinner ih => exact plays_enumerated ihinner ih
  | whileLoop test comparison inner rest ihtest ihinner ih => exact plays_whileLoop ihtest ihinner ih
  | switch cases parts rest ihparts ih => exact plays_switch ihparts ih
  | elseIf left comparison right arms ih => exact plays_elseIf ih
  | elseIfEmpty slot arms ih => exact plays_elseIfEmpty ih
  | otherwise last ih => exact plays_otherwise ih
  | case i name parts ih => exact plays_case ih
  | endCase parts ih => exact plays_endCase ih
  | default parts ih => exact plays_default ih

end Program

/-! ## The whole -/

/-- The labels of a session are **settled**: each is marked at most once, and exactly once if a recorded
jump goes to it. -/
def Session.Settled (s : Session) : Prop :=
  ∀ l, (∀ n m, s.labels.MarkedAt l n → s.labels.MarkedAt l m → n = m) ∧
    (s.JumpsTo l → ∃! n, s.labels.MarkedAt l n)

/-- In a sound session that is balanced with nothing open and nothing to come, the labels are settled. -/
theorem Session.Balanced.end_settled {s : Session} (h : s.Balanced g [] []) (hs : s.Sound) :
    s.constructs = [] ∧ s.Complete ∧ s.Settled := by
  obtain ⟨hopen, hmarked⟩ := h.settled
  have hcomplete : s.Complete := fun l hl => hmarked l ((hs.noted l).2 hl)
  refine ⟨hopen, hcomplete, fun l => ⟨fun n m hn hm => hn.unique hm, fun hl => ?_⟩⟩
  obtain ⟨n, hn⟩ := hcomplete l hl
  exact ⟨n, hn, fun m hm => hm.unique hn⟩

namespace Builder

/-- The session of a new builder is sound and balanced. -/
theorem begin_balanced (number : Nat) (name : String) (signature : Signature) (sink : Sink)
    (level : TraceDetail) :
    ∃ s, (begin number name signature sink level).builder.state = .building s ∧ s.Sound ∧
      s.Balanced signature [] [] := by
  obtain ⟨s, hs, hspares⟩ := begin_spares number name signature sink level
  obtain ⟨s', hs', hsound⟩ := begin_building number name signature sink level
  obtain rfl := BuilderState.building.inj (hs.symm.trans hs')
  exact ⟨s, hs, hsound, (Session.balanced_fresh number name signature sink).spared hspares⟩

/-- **Structured programs build**, at every level. No call of a well-formed program is refused, the labels
of its constructs are settled behind it, and it leads to a procedure. But no alternative follows the last
one of a conditional: calls that open another one, behind calls that left the constructs as they were,
never lead to a procedure. -/
theorem structured_builds (number : Nat) (name : String) (signature : Signature) (sink : Sink)
    (level : TraceDetail) :
    let b := (begin number name signature sink level).builder
    (∀ program : Program .block, program.WellFormed signature 0 →
        ∃ b' s p, (program.play [] []).run b = .ok ((), b') ∧ b'.state = .building s ∧ s.Settled ∧
          b'.finish.result = .ok p) ∧
      ∀ (before : List Call) (mid : List Operation) (o : Operation) (behind : List Call) (p : Procedure),
        records mid [] = some [] → o.bracket = .alternative →
          (b.after (before ++ .perform .openElse :: (mid.map .perform ++ .perform o :: behind))).finish.result ≠
            .ok p := by
  intro b
  obtain ⟨s₀, hs₀, hsound, hbalanced⟩ := begin_balanced number name signature sink level
  refine ⟨fun program hwell => ?_, fun before mid o behind p hmid ho =>
    finish_ne_of_alternative hs₀ hbalanced.fit before hmid ho behind p⟩
  have hplay : (program.play [] []).Ensures (Session.Balanced signature [] []) fun _ =>
      Session.Balanced signature [] [] := program.plays.block nofun hwell
  obtain ⟨_, b', s, hrun, hs, hsound', hend⟩ := hplay b s₀ hs₀ hsound hbalanced
  obtain ⟨hopen, hcomplete, hsettled⟩ := hend.end_settled hsound'
  obtain ⟨code, hfinish, -⟩ := Emit.run_finish_complete hsound' hopen hcomplete
  exact ⟨b', s, _, hrun, hs, hsettled, (finish_ok hs hfinish).1⟩

/-- A switch in a counted loop: one case leaves the loop, the other has a conditional with three
alternatives, and the default section a while loop. -/
def nest : Program .block :=
  .counted (some ⟨0, .primitive .i32⟩) (.constant (.scalar (.i32 0))) (.constant (.scalar (.i32 9)))
    (.call (.loadLocal ⟨0, .primitive .i32⟩) <| .switch 2
      (.case 1 "out" <| .leave .always 0 <| .endCase <|
        .case 0 "choice" <| .call (.loadConstant (.scalar (.bool true))) <| .conditional .ifTrue
          (.call .dup <| .elseIfEmpty ⟨1, .string⟩ <| .otherwise .done) <| .endCase <|
        .default <| .whileLoop (.call .dup .done) .lessThan .done .done)
      .done)
    .done

theorem wellFormed_nest : nest.WellFormed ⟨[], none⟩ 0 := by
  have hzero : Emit.Accepted ⟨[], none⟩ (Emit.load (.constant (.scalar (.i32 0)))) := Emit.accepted_traced _ _
  have hnine : Emit.Accepted ⟨[], none⟩ (Emit.load (.constant (.scalar (.i32 9)))) := Emit.accepted_traced _ _
  have hindex : Emit.Accepted ⟨[], none⟩ (Operation.loadLocal ⟨0, .primitive .i32⟩).perform := ⟨_, _, rfl⟩
  have htrue : Emit.Accepted ⟨[], none⟩ (Operation.loadConstant (.scalar (.bool true))).perform := ⟨_, _, rfl⟩
  have hdup : Emit.Accepted ⟨[], none⟩ Operation.dup.perform := ⟨_, _, rfl⟩
  refine ⟨fun _ => ⟨hzero, hnine⟩, ⟨.inl rfl, hindex, ⟨by decide, by decide⟩, ?_, trivial⟩, trivial⟩
  exact ⟨Nat.zero_lt_one, .inl rfl, htrue, nofun, ⟨.inl rfl, hdup, trivial⟩, ⟨.inl rfl, hdup, trivial⟩, trivial,
    trivial⟩

theorem structured_builds_nest :
    (nest.WellFormed ⟨[], none⟩ 0 ∧
      ∃ b' s p, (nest.play [] []).run (begin 1 "f" ⟨[], none⟩ .log .full).builder = .ok ((), b') ∧
        b'.state = .building s ∧ s.Settled ∧ b'.finish.result = .ok p) ∧
      ∀ p, ((begin 1 "f" ⟨[], none⟩ .log .full).builder.after
        ([.openIfTrue, .openElse, .dup, .openElse, .closeIf].map .perform)).finish.result ≠ .ok p := by
  obtain ⟨hbuilds, hlast⟩ := structured_builds 1 "f" ⟨[], none⟩ .log .full
  exact ⟨⟨wellFormed_nest, hbuilds nest wellFormed_nest⟩,
    fun p => hlast [.perform .openIfTrue] [.dup] .openElse [.perform .closeIf] p rfl rfl⟩

end Builder

end Stackwright
