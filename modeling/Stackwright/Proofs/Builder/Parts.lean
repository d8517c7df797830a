import Stackwright.Proofs.Builder.Fitting
import Stackwright.Proofs.Structure.Discipline

/-! # Parts of a construct

The calls of a construct come in **parts**: a call that opens the part, the calls of its body, and those
that close it. What a construct does is said about the code that is recorded outside of the bodies, for a
body may be anything that leaves the open constructs as they were.

* **`Builder.bodies b parts`** — the builders before and behind each body.
* **`Builder.Outside b b' bodies n`** — a position is recorded between two builders, and by no body.
* **`Builder.Laid`** — the parts are accepted one after the other. -/

namespace Stackwright

/-- A **part** of a construct. -/
structure Part where
  /-- The call that opens it. -/
  opening : Operation
  /-- The calls of its body. -/
  body : List Call
  /-- The calls that close it. -/
  closing : List Call

/-- The calls of a part. -/
def Part.calls (part : Part) : List Call := .perform part.opening :: (part.body ++ part.closing)

namespace Builder

/-- The position of the next instruction. -/
def position (b : Builder) : Nat :=
  match b.state with
  | .building s => s.code.size
  | .aborted | .finalized => 0

/-- What stays of the open constructs. -/
def outline (b : Builder) : List Construct :=
  match b.state with
  | .building s => s.outline
  | .aborted | .finalized => []

/-- The builders before and behind the **body** of each part. -/
def bodies (b : Builder) : List Part → List (Builder × Builder)
  | [] => []
  | part :: parts =>
    (b.after [.perform part.opening], b.after (.perform part.opening :: part.body)) ::
      (b.after part.calls).bodies parts

/-- Each body leaves the open constructs as they were. -/
def Balanced (bodies : List (Builder × Builder)) : Prop :=
  ∀ body ∈ bodies, body.2.outline = body.1.outline

/-- A position is **outside** of the bodies of what is recorded between two builders. -/
def Outside (b b' : Builder) (bodies : List (Builder × Builder)) (n : Nat) : Prop :=
  b.position ≤ n ∧ n < b'.position ∧ ∀ body ∈ bodies, ¬ (body.1.position ≤ n ∧ n < body.2.position)

/-! ## Parts that are accepted -/

/-- A part is **accepted**, with the sessions before it, around its body and behind it. -/
structure Accepts (level : TraceDetail) (part : Part) (a x y z : Session) : Prop where
  /-- It is opened. -/
  opens : Takes level [.perform part.opening] a x
  /-- Its body. -/
  body : Takes level part.body x y
  /-- It is closed. -/
  closes : Takes level part.closing y z
  /-- What opened it was recorded behind what there was. -/
  grows_body : a.Grows x
  /-- And so was the body. -/
  grows_closing : x.Grows y
  /-- And so was what closed it. -/
  grows_end : y.Grows z

/-- Parts are **laid** one behind the other, each body with the sessions around it. -/
inductive Laid (level : TraceDetail) : List Part → Session → Session → List (Session × Session) → Prop
  /-- There are none. -/
  | nil (a : Session) : Laid level [] a a []
  /-- One part, and the others. -/
  | cons {part : Part} {parts : List Part} {a x y z c : Session} {places : List (Session × Session)}
      (h : Accepts level part a x y z) (hrest : Laid level parts z c places) :
      Laid level (part :: parts) a c ((x, y) :: places)

variable {level : TraceDetail} {part : Part} {parts : List Part} {cs : List Call}
  {a c s s' x y z : Session} {places : List (Session × Session)}

/-- Accepted calls lead from one builder to another. -/
theorem Takes.taking (h : Takes level cs s s') (sink : Sink) :
    (taking sink level s).after cs = Builder.taking sink level s' := by
  induction h with
  | nil => rfl
  | @cons _ _ s _ _ _ hrun _ ih =>
    rw [Builder.after, take, perform_ok (b := Builder.taking sink level s) rfl hrun]
    exact ih

theorem Accepts.extends_body (h : Accepts level part a x y z) : a.Extends x := h.grows_body.extends

theorem Accepts.extends_closing (h : Accepts level part a x y z) : x.Extends y := h.grows_closing.extends

theorem Accepts.extends_end (h : Accepts level part a x y z) : y.Extends z := h.grows_end.extends

/-- An accepted part leads from one builder to another. -/
theorem Accepts.taking (h : Accepts level part a x y z) (sink : Sink) :
    (taking sink level a).after part.calls = Builder.taking sink level z :=
  (h.opens.trans (h.body.trans h.closes)).taking sink

theorem Accepts.extends (h : Accepts level part a x y z) : a.Extends z :=
  h.extends_body.trans (h.extends_closing.trans h.extends_end)

theorem Laid.extends (h : Laid level parts a c places) : a.Extends c := by
  induction h with
  | nil => exact .refl _
  | cons hone _ ih => exact hone.extends.trans ih

/-- Accepted calls of parts lay them out. -/
theorem laid_of_takes (ha : a.Inner) (hinside : ∀ call ∈ parts.flatMap Part.calls, Emit.Inside call.handed)
    (h : Takes level (parts.flatMap Part.calls) a c) : ∃ places, Laid level parts a c places ∧ c.Inner := by
  induction parts generalizing a with
  | nil =>
    cases h
    exact ⟨[], .nil _, ha⟩
  | cons part parts ih =>
    rw [List.flatMap_cons] at h hinside
    obtain ⟨hpart, hmore⟩ := List.forall_mem_append.1 hinside
    obtain ⟨hopening, hpart⟩ := List.forall_mem_cons.1 hpart
    obtain ⟨hbody, hclosing⟩ := List.forall_mem_append.1 hpart
    obtain ⟨z, hone, hrest⟩ := h.split
    obtain ⟨x, hopens, hone⟩ := Takes.uncons hone
    obtain ⟨y, hmiddle, hcloses⟩ := hone.split
    have hax := hopens.grows ha (List.forall_mem_singleton.2 hopening)
    have hxy := hmiddle.grows (hax.inner ha) hbody
    have hyz := hcloses.grows (hxy.inner (hax.inner ha)) hclosing
    obtain ⟨places, hlaid, hc⟩ := ih (hyz.inner (hxy.inner (hax.inner ha))) hmore hrest
    exact ⟨_, .cons ⟨hopens, hmiddle, hcloses, hax, hxy, hyz⟩ hlaid, hc⟩

/-- The builders around the bodies are those of the sessions. -/
theorem Laid.bodies_eq (h : Laid level parts a c places) (sink : Sink) :
    (taking sink level a).bodies parts =
      places.map fun place => (taking sink level place.1, taking sink level place.2) := by
  induction h with
  | nil => rfl
  | cons hone _ ih =>
    have hopened := hone.opens.taking sink
    have hdone := (hone.opens.trans hone.body).taking sink
    rw [bodies, List.map_cons, ← ih]
    exact congrArg₂ _ (congrArg₂ _ hopened hdone) (congrArg (bodies · _) (hone.taking sink))

/-- The builders around the body of one of the parts. -/
theorem Laid.of_mem_bodies {α : Type} {items : List α} {f : α → Part} {item : α} {b b' : Builder}
    {sink : Sink} (h : Laid level (items.map f) a c places)
    (hmem : (item, b, b') ∈ items.zip ((taking sink level a).bodies (items.map f))) :
    ∃ x y, (item, x, y) ∈ items.zip places ∧ b = taking sink level x ∧ b' = taking sink level y := by
  rw [h.bodies_eq sink, List.zip_map_right] at hmem
  obtain ⟨⟨_, x, y⟩, hplace, heq⟩ := List.mem_map.1 hmem
  cases heq
  exact ⟨x, y, hplace, rfl, rfl⟩

/-- The bodies are between the ends. -/
theorem Laid.bounds (h : Laid level parts a c places) {place : Session × Session} (hplace : place ∈ places) :
    a.code.size ≤ place.1.code.size ∧ place.1.code.size ≤ place.2.code.size ∧
      place.2.code.size ≤ c.code.size := by
  induction h with
  | nil => cases hplace
  | cons hone hrest ih =>
    have hax := hone.extends_body.size
    have hxy := hone.extends_closing.size
    have hyz := hone.extends_end.size
    have hzc := hrest.extends.size
    rcases List.mem_cons.1 hplace with rfl | hplace
    · exact ⟨hax, hxy, Nat.le_trans hyz hzc⟩
    · obtain ⟨hfirst, hbody, hlast⟩ := ih hplace
      exact ⟨by omega, hbody, hlast⟩

/-- A position is in no body. -/
def Clear (places : List (Session × Session)) (n : Nat) : Prop :=
  ∀ place ∈ places, ¬ (place.1.code.size ≤ n ∧ n < place.2.code.size)

/-- One of the parts, and what is before and behind it. What opens and closes it is in no body. -/
theorem Laid.at {α : Type} {items : List α} {f : α → Part} {item : α}
    (h : Laid level (items.map f) a c places) (hmem : (item, x, y) ∈ items.zip places) :
    ∃ before behind z z' earlier later, items = before ++ item :: behind ∧
      places = earlier ++ (x, y) :: later ∧ Laid level (before.map f) a z earlier ∧ Accepts level (f item) z x y z' ∧
      Laid level (behind.map f) z' c later ∧
      (∀ n, z.code.size ≤ n → n < x.code.size → Clear places n) ∧
      (∀ n, y.code.size ≤ n → n < z'.code.size → Clear places n) := by
  induction items generalizing a places with
  | nil => cases hmem
  | cons head items ih =>
    rw [List.map_cons] at h
    cases h with
    | @cons _ _ _ x₁ y₁ z₁ _ places hone hrest =>
      have hxy := hone.extends_closing.size
      have hyz := hone.extends_end.size
      rcases List.mem_cons.1 hmem with heq | hmem
      · cases heq
        refine ⟨[], items, a, z₁, [], places, rfl, rfl, .nil _, hone, hrest, ?_, ?_⟩
        · rintro n - hn place hplace ⟨hfirst, -⟩
          rcases List.mem_cons.1 hplace with rfl | hplace
          · exact absurd hfirst (Nat.not_le.2 hn)
          · have := (hrest.bounds hplace).1
            omega
        · rintro n hn hn' place hplace ⟨hfirst, hlast⟩
          rcases List.mem_cons.1 hplace with rfl | hplace
          · exact absurd hlast (Nat.not_lt.2 hn)
          · have := (hrest.bounds hplace).1
            omega
      · obtain ⟨before, behind, z, z', earlier, later, rfl, rfl, hbefore, hpart, hbehind, hin, hout⟩ :=
          ih hrest hmem
        have hz := hbefore.extends.size
        have hwide := Nat.le_trans hpart.extends_body.size hpart.extends_closing.size
        -- what is behind a part is in no body of it
        have hclear : ∀ n, z₁.code.size ≤ n → Clear (earlier ++ (x, y) :: later) n →
            Clear ((x₁, y₁) :: (earlier ++ (x, y) :: later)) n := by
          rintro n hn hclear place hplace ⟨hfirst, hlast⟩
          rcases List.mem_cons.1 hplace with rfl | hplace
          · dsimp only at hlast
            omega
          · exact hclear place hplace ⟨hfirst, hlast⟩
        exact ⟨head :: before, behind, z, z', _, later, rfl, rfl, .cons hone hbefore, hpart, hbehind,
          fun n hn hn' => hclear n (by omega) (hin n hn hn'),
          fun n hn hn' => hclear n (by omega) (hout n hn hn')⟩

/-- What is outside of the bodies is told by the sessions around them. -/
theorem outside_iff (h : Laid level parts a c places) (sink : Sink) {n : Nat} :
    Outside (taking sink level s) (taking sink level s') ((taking sink level a).bodies parts) n ↔
      s.code.size ≤ n ∧ n < s'.code.size ∧ Clear places n := by
  rw [Outside, h.bodies_eq sink, List.forall_mem_map]
  rfl

/-- Balanced bodies leave the constructs of their sessions. -/
theorem balanced_iff (h : Laid level parts a c places) (sink : Sink) :
    Balanced ((taking sink level a).bodies parts) ↔
      ∀ place ∈ places, place.2.outline = place.1.outline := by
  rw [Balanced, h.bodies_eq sink, List.forall_mem_map]
  rfl

/-! ## Constructs of a procedure -/

/-- What the session of a client can rely on. -/
theorem fit_of_after {number : Nat} {name : String} {signature : Signature} {sink : Sink} {cs : List Call}
    (h : ((begin number name signature sink level).builder.after cs).state = .building s) : s.Fit := by
  obtain ⟨s₀, hs₀, hspares⟩ := begin_spares number name signature sink level
  obtain ⟨os, rfl⟩ := operations_of_after h
  exact (kinds_after hs₀ hspares.fit h).1

/-- **Some calls of a client**: they were accepted between two sessions, and the procedure fits the last session,
which the calls behind them lead to. -/
theorem takes_around {number : Nat} {name : String} {signature : Signature} {sink : Sink}
    {cs calls cs' : List Call} {b : Builder} {p : Procedure}
    (hb : (begin number name signature sink level).builder.after cs = b)
    (hissued : ∀ call ∈ cs ++ (calls ++ cs'), ∀ l ∈ call.handed, l.Issued)
    (hp : (b.after (calls ++ cs')).finish.result = .ok p) :
    ∃ sink' s s' f, b = taking sink' level s ∧ s.Sound ∧ Takes level calls s s' ∧ Takes level cs' s' f ∧ s'.Grows f ∧
      p.Fits f ∧ ∀ call ∈ calls, Emit.Inside call.handed := by
  subst hb
  rw [← after_append] at hp
  obtain ⟨s₀, f, hs₀, hsound, htakes, hfits⟩ := takes_of_finish hissued hp
  have hinside : ∀ call ∈ cs ++ (calls ++ cs'), Emit.Inside call.handed :=
    fun call hcall l hl => (hissued call hcall l hl).inside
  obtain ⟨hcs, hmore⟩ := List.forall_mem_append.1 hinside
  obtain ⟨hcalls, hcs'⟩ := List.forall_mem_append.1 hmore
  obtain ⟨s, hbefore, hrest⟩ := htakes.split
  obtain ⟨s', hmiddle, hbehind⟩ := hrest.split
  have hgrows := hbefore.grows hsound.inner hcs
  have hgrows' := hmiddle.grows (hgrows.inner hsound.inner) hcalls
  have hgrows'' := hbehind.grows (hgrows'.inner (hgrows.inner hsound.inner)) hcs'
  have hlevel : (begin number name signature sink level).builder.level = level := level_submit
  have hbuilder := eq_taking hs₀
  rw [hlevel] at hbuilder
  refine ⟨(begin number name signature sink level).builder.sink, s, s', f, ?_, hgrows.sound hsound, hmiddle, hbehind,
    hgrows'', hfits, hcalls⟩
  rw [hbuilder]
  exact hbefore.taking _

@[inherit_doc takes_around]
theorem takes_within {number : Nat} {name : String} {signature : Signature} {sink : Sink}
    {cs calls cs' : List Call} {b : Builder} {p : Procedure}
    (hb : (begin number name signature sink level).builder.after cs = b)
    (hissued : ∀ call ∈ cs ++ (calls ++ cs'), ∀ l ∈ call.handed, l.Issued)
    (hp : (b.after (calls ++ cs')).finish.result = .ok p) :
    ∃ sink' s s' f, b = taking sink' level s ∧ s.Sound ∧ Takes level calls s s' ∧ s'.Grows f ∧
      p.Fits f ∧ ∀ call ∈ calls, Emit.Inside call.handed := by
  obtain ⟨sink', s, s', f, hs, hsound, htakes, -, hgrows, hfits, hinside⟩ := takes_around hb hissued hp
  exact ⟨sink', s, s', f, hs, hsound, htakes, hgrows, hfits, hinside⟩

end Builder

end Stackwright
