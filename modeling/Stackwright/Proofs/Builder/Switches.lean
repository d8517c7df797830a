import Stackwright.Proofs.Builder.Guards
import Stackwright.Proofs.Builder.Parts
import Stackwright.Proofs.Scalar.Words

/-! # Switches

A switch jumps through a table to the labels of its cases, and behind the table to the label of the
default section. The labels are marked by the sections in any order, and that of the default section at
the end if there is none. A section is left by a jump to the end of the switch; the last one may run into
it. -/

namespace Stackwright

/-- A **section** of a switch: its label and name, or that it is the default section, and its body. -/
inductive Section
  /-- A section of a case. -/
  | case (label : Label) (name : String) (body : List Call)
  /-- The default section. It may be left open if it is the last section. -/
  | default (body : List Call) (closed : Bool)

namespace Section

/-- The call that begins a section. -/
def opener : Section → Operation
  | .case label name _ => .openCase label name
  | .default .. => .openDefault

/-- Whether a section is left open. -/
def isOpen : Section → Bool
  | .case .. => false
  | .default _ closed => !closed

/-- Whether a section is the default section. -/
def isDefault : Section → Bool
  | .case .. => false
  | .default .. => true

/-- A section as a part of its switch. -/
def part (sec : Section) : Part where
  opening := sec.opener
  body := match sec with
    | .case _ _ body | .default body _ => body
  closing := if sec.isOpen then [] else [.perform .closeCase]

/-- The label of a section of a switch, given that of the default section. -/
def label (default : Label) : Section → Label
  | .case label _ _ => label
  | .default .. => default

/-- A section is **selected** by an integer: a section of a case if its label is the one of that number,
and the default section if there is no label of that number. -/
def Selected (labels : List Label) (z : Int) : Section → Prop
  | .case label _ _ => ∃ i : Nat, z = i ∧ labels[i]? = some label
  | .default .. => ¬ (0 ≤ z ∧ z < labels.length)

end Section

/-- The calls of a switch with a number of cases, by its sections. -/
def switchCalls (cases : Nat) (sections : List Section) : List Call :=
  .perform (.openSwitch cases) ::
    ((sections.map Section.part).flatMap Part.calls ++ [.perform .closeSwitch])

/-! ## What the calls record -/

namespace Emit

variable {t : Tracer} {s s' : Session} {d finish : Label} {given : Bool} {cs : List Construct}

/-- The labels of a switch are new, and nothing else is. -/
theorem tells_newLabels {n : Nat} {ls : List Label} (h : ((newLabels n).run t).run s = .ok ls s') :
    s.Tells s' ∧ ls.length = n := by
  induction n generalizing s ls with
  | zero =>
    cases h
    exact ⟨.refl _, rfl⟩
  | succ n ih =>
    obtain ⟨l, s₁, hnew, hrest⟩ := run_bind_eq_ok.1 h
    obtain ⟨ls', s₂, hls, hdone⟩ := run_bind_eq_ok.1 hrest
    cases hdone
    obtain ⟨htells, hlength⟩ := ih hls
    exact ⟨(tells_newLabel hnew).trans htells, by simp [hlength]⟩

theorem tells_noteLabels {ls : List Label} (h : ((noteLabels ls).run t).run s = .ok () s') :
    s.Tells s' := by
  induction ls generalizing s with
  | nil =>
    cases h
    exact .refl _
  | cons l ls ih =>
    obtain ⟨u, s₁, hnote, hrest⟩ := run_bind_eq_ok.1 h
    exact (tells_note hnote).trans (ih hrest)

/-- A switch is opened by its table and a jump to the default section. -/
theorem switched_of_openSwitch {n : Nat} {ls : List Label}
    (h : ((openSwitch n).run t).run s = .ok ls s') :
    ls.length = n ∧ ∃ s₁ s₂ d finish, s.Tells s₁ ∧ (s₁.jumped (.switch ls)).Tells s₂ ∧
      s' = (s₂.jumped (.always d)).withConstructs (.switch d finish false :: s.constructs) := by
  obtain ⟨d, s₁, hd, h⟩ := run_bind_eq_ok.1 h
  obtain ⟨finish, s₂, hfinish, h⟩ := run_bind_eq_ok.1 h
  obtain ⟨ls', s₃, hlabels, h⟩ := run_bind_eq_ok.1 h
  obtain ⟨u, s₄, hfirst, h⟩ := run_bind_eq_ok.1 h
  obtain ⟨u, s₅, hlines, h⟩ := run_bind_eq_ok.1 h
  obtain ⟨u, s₆, hlast, h⟩ := run_bind_eq_ok.1 h
  obtain ⟨u, s₇, htable, h⟩ := run_bind_eq_ok.1 h
  obtain ⟨u, s₈, hdefault, h⟩ := run_bind_eq_ok.1 h
  obtain ⟨u, s₉, hopened, h⟩ := run_bind_eq_ok.1 h
  cases h
  cases hopened
  obtain ⟨hnew, hlength⟩ := tells_newLabels hlabels
  have htold : s.Tells s₆ := (tells_newLabel hd).trans ((tells_newLabel hfinish).trans
    (hnew.trans ((tells_note hfirst).trans ((tells_noteLabels hlines).trans (tells_note hlast)))))
  obtain ⟨-, rfl⟩ := jumped_of_jump htable
  obtain ⟨s₇, hbehind, -, rfl⟩ := tells_jump hdefault
  refine ⟨hlength, s₆, s₇, d, finish, htold, hbehind, ?_⟩
  have hsame : s₇.constructs = s.constructs := hbehind.constructs.trans htold.constructs
  rw [← hsame]
  rfl

/-- A section of a case begins where its label is marked. -/
theorem tells_openCase {l : Label} {name : String} (h : ((openCase l name).run t).run s = .ok () s') :
    ∃ s₁, s.Tells s₁ ∧ s₁.Tells s' ∧ s'.labels.MarkedAt l s₁.code.size := by
  obtain ⟨u, s₁, hnote, hmark⟩ := run_bind_eq_ok.1 h
  obtain ⟨htells, hat⟩ := tells_markHere hmark
  exact ⟨s₁, tells_note hnote, htells, hat⟩

/-- The innermost construct, a switch, is read and stays. -/
theorem run_currentSwitch (h : s.constructs = .switch d finish given :: cs) :
    ((currentSwitch).run t).run s = .ok (d, finish, given) s := by
  rw [currentSwitch, run_bind, run_get]
  dsimp only
  rw [h]
  rfl

/-- A section ends with a jump to the end of its switch. -/
theorem tells_closeCase (hs : s.constructs = .switch d finish given :: cs)
    (h : ((closeCase).run t).run s = .ok () s') :
    ∃ s₁, s.Tells s₁ ∧ (s₁.jumped (.always finish)).Tells s' := by
  obtain ⟨found, s₁, hcurrent, hrest⟩ := run_bind_eq_ok.1 h
  rw [run_currentSwitch hs] at hcurrent
  cases hcurrent
  obtain ⟨u, s₂, hjump, hnote⟩ := run_bind_eq_ok.1 hrest
  obtain ⟨s₁, htells, -, rfl⟩ := tells_jump hjump
  exact ⟨s₁, htells, tells_note hnote⟩

/-- The default section begins where its label is marked. -/
theorem tells_openDefault (hs : s.constructs = .switch d finish given :: cs)
    (h : ((openDefault).run t).run s = .ok () s') :
    (s.withConstructs (.switch d finish true :: cs)).Tells s' ∧ s'.labels.MarkedAt d s.code.size := by
  obtain ⟨found, s₁, hcurrent, hrest⟩ := run_bind_eq_ok.1 h
  rw [run_currentSwitch hs] at hcurrent
  cases hcurrent
  obtain ⟨u, s₂, hmodify, hmark⟩ := run_bind_eq_ok.1 hrest
  have hdrop : s.constructs.drop 1 = cs := by rw [hs]; rfl
  rw [run_modify, hdrop] at hmodify
  cases hmodify
  exact tells_markHere hmark

/-- A switch that is innermost is taken. -/
theorem run_takeSwitch (h : s.constructs = .switch d finish given :: cs) :
    (takeSwitch.run t).run s = .ok (d, finish, given) (s.withConstructs cs) := by
  have htake : (takeInnermost.run t).run s =
      .ok (some (.switch d finish given)) (s.withConstructs cs) := by
    show EStateM.Result.ok s.constructs.head? (s.withConstructs (s.constructs.drop 1)) = _
    rw [h]
    rfl
  rw [takeSwitch, run_bind, htake]
  rfl

/-- A switch ends where its end label is marked; before that, the label of the default section is marked
unless there is one. -/
theorem tells_closeSwitch (hs : s.constructs = .switch d finish given :: cs)
    (h : ((closeSwitch).run t).run s = .ok () s') :
    ∃ s₁ s₂, (s.withConstructs cs).Tells s₁ ∧ s₁.Tells s₂ ∧ s₂.Tells s' ∧
      s'.labels.MarkedAt finish s₂.code.size ∧ (given = false → s₂.labels.MarkedAt d s₁.code.size) := by
  obtain ⟨found, s₀, htake, h⟩ := run_bind_eq_ok.1 h
  rw [run_takeSwitch hs] at htake
  cases htake
  obtain ⟨u, s₁, hnote, h⟩ := run_bind_eq_ok.1 h
  cases given with
  | true =>
    obtain ⟨hlast, hat⟩ := tells_markHere h
    exact ⟨s₁, s₁, tells_note hnote, .refl _, hlast, hat, nofun⟩
  | false =>
    obtain ⟨u, s₂, hdefault, hmark⟩ := run_bind_eq_ok.1 h
    obtain ⟨hmiddle, hat'⟩ := tells_markHere hdefault
    obtain ⟨hlast, hat⟩ := tells_markHere hmark
    exact ⟨s₁, s₂, tells_note hnote, hmiddle, hlast, hat, fun _ => hat'⟩

end Emit

/-! ## Tables -/

/-- **A table** sends a word to the target at its place, if the table has that place. -/
theorem Jump.run_switch {ts : List Nat} {m : Machine} {k : WordKind} {v : BitVec k.bits}
    {rest : List Value} (hts : ts.length ≤ 1 <<< 63) (hstack : m.frame.stack = .scalar (.word k v) :: rest) :
    (Jump.switch ts).follow.run m =
      .ok (if Scalar.wordValue k v < 0 then none else ts[(Scalar.wordValue k v).toNat]?) (m.withStack rest) := by
  obtain ⟨j, hj, hvalue⟩ := Value.index?_word k v
  have hpop : Exec.popIndex.run m = .ok j (m.withStack rest) := by
    rw [Exec.popIndex, Exec.run_bind_ok (Exec.run_pop hstack), hj]
    rfl
  rw [Jump.follow, Exec.run_bind_ok hpop, Exec.run_pure]
  rcases hvalue with rfl | ⟨hneg, hlarge⟩
  · rfl
  · have hout : ts[(Scalar.wordValue k v).toNat]? = none := List.getElem?_eq_none (by omega)
    rw [if_pos hneg, if_neg (by omega), hout]

/-- The table of a switch is linked entry by entry. -/
theorem Procedure.Fits.table {p : Procedure} {f s : Session} {ls : List Label} (h : p.Fits f)
    (hs : (s.jumped (.switch ls)).Extends f) :
    ∃ ts, List.Forall₂ f.labels.MarkedAt ls ts ∧ p.code[s.code.size]? = some (.jump (.switch ts)) := by
  obtain ⟨j', hj', hgoal⟩ := h.jump (n := s.code.size) hs (j := .switch ls) (by simp)
  have hrow := Jump.targets_mapTargets hgoal
  cases hts : ls.mapM f.labels.position with
  | error e =>
    rw [Jump.mapTargets, hts] at hgoal
    cases hgoal
  | ok ts =>
    rw [Jump.mapTargets, hts] at hgoal
    cases hgoal
    exact ⟨ts, hrow.imp fun _ _ h => Marks.position_eq_ok.1 h, hj'⟩

/-! ## Where a run through a switch gets -/

open Builder (Takes Accepts Laid Clear)

/-- An innermost switch is known by the outline. -/
theorem Session.constructs_of_switch {s : Session} {d finish : Label} {given : Bool}
    {rest : List Construct} (h : s.outline = .switch d finish given :: rest) :
    ∃ cs, s.constructs = .switch d finish given :: cs ∧ cs.map Construct.bare = rest := by
  obtain ⟨c, cs, hcs, hc, hrest⟩ := List.map_eq_cons_iff.1 h
  exact ⟨cs, by rw [hcs, Construct.bare_eq_switch.1 hc], hrest⟩

namespace Switch

variable {p : Procedure} {f : Session} {level : TraceDetail} {d finish : Label} {sec : Section}
  {a c s s' x y z : Session} {given : Bool} {rest : List Construct} {ls : List Label} {n : Nat}

/-- A run gets from the label of a section to its body. -/
structure Enters (p : Procedure) (f : Session) (l : Label) (a x : Session) : Prop where
  /-- The label is marked behind what was recorded before, and nothing but reports is behind it. -/
  marked : ∃ n, a.code.size ≤ n ∧ f.labels.MarkedAt l n ∧ p.Slides n x.code.size

/-- A run gets from the end of a body to the end of a switch. -/
structure Leaves (p : Procedure) (f : Session) (finish : Label) (y z : Session) : Prop where
  /-- Behind the body, nothing but reports is before a jump to the end of the switch. -/
  jumps : ∃ n q, y.code.size ≤ n ∧ n < z.code.size ∧ p.Slides y.code.size n ∧
    f.labels.MarkedAt finish q ∧ p.code[n]? = some (.jump (.always q))

/-- How a section begins. -/
theorem enters_of_opener (hp : p.Fits f) (ha : a.outline = .switch d finish given :: rest)
    (hopens : Takes level [.perform sec.opener] a x) (hx : x.Extends f) :
    x.outline = .switch d finish (given || sec.isDefault) :: rest ∧ Enters p f (sec.label d) a x := by
  obtain ⟨cs, hcs, rfl⟩ := Session.constructs_of_switch ha
  cases sec with
  | case l name body =>
    obtain ⟨x₁, hrun, rfl⟩ := hopens.done rfl
    obtain ⟨a₁, hline, hmark, hat⟩ := Emit.tells_openCase hrun
    have hlast := hmark.trans x₁.tells_delivered
    have hall := hline.trans hlast
    refine ⟨?_, ⟨a₁.code.size, hline.further.size, ?_, hlast.slides hp hx⟩⟩
    · rw [Session.outline, hall.constructs, hcs]
      simp [Section.isDefault, Construct.bare]
    · exact (x₁.tells_delivered.further.trans hx).marks _ _ hat
  | default body closed =>
    obtain ⟨x₁, hrun, rfl⟩ := hopens.done rfl
    obtain ⟨hmark, hat⟩ := Emit.tells_openDefault hcs hrun
    have hall := hmark.trans x₁.tells_delivered
    refine ⟨?_, ⟨a.code.size, Nat.le_refl _, ?_, hall.slides hp hx⟩⟩
    · rw [Session.outline, hall.constructs]
      simp [Section.isDefault, Construct.bare]
    · exact (x₁.tells_delivered.further.trans hx).marks _ _ hat

/-- How a section that is not left open ends. -/
theorem leaves_of_closer (hp : p.Fits f) (hy : y.outline = .switch d finish given :: rest)
    (hcloses : Takes level [.perform .closeCase] y z) (hz : z.Extends f) :
    z.outline = y.outline ∧ Leaves p f finish y z := by
  obtain ⟨cs, hcs, -⟩ := Session.constructs_of_switch hy
  obtain ⟨z₁, hrun, rfl⟩ := hcloses.done rfl
  obtain ⟨y₁, hline, hlast⟩ := Emit.tells_closeCase hcs hrun
  have hlast := hlast.trans z₁.tells_delivered
  have hjump := y₁.extends_jumped (.always finish)
  obtain ⟨q, hq, hcode⟩ := hp.always (hlast.further.trans hz)
  refine ⟨?_, ⟨y₁.code.size, q, hline.further.size, ?_,
    hline.slides hp (hjump.trans (hlast.further.trans hz)), hq, hcode⟩⟩
  · rw [Session.outline, hlast.constructs]
    exact congrArg (List.map Construct.bare) hline.constructs
  · have hsize : (y₁.jumped (.always finish)).code.size = y₁.code.size + 1 := by simp
    have := hlast.further.size
    omega

/-- What a section with a balanced body comes to. One that is left open ends with its body. -/
theorem section_of_accepts (hp : p.Fits f) (ha : a.outline = .switch d finish given :: rest)
    (h : Accepts level sec.part a x y z) (hbalanced : y.outline = x.outline) (hz : z.Extends f) :
    z.outline = .switch d finish (given || sec.isDefault) :: rest ∧ Enters p f (sec.label d) a x ∧
      (sec.isOpen = false → Leaves p f finish y z) ∧ (sec.isOpen = true → z = y) := by
  have hyf := h.extends_end.trans hz
  obtain ⟨hx, henters⟩ := enters_of_opener hp ha h.opens (h.extends_closing.trans hyf)
  have hy := hbalanced.trans hx
  have hcloses := h.closes
  cases hopen : sec.isOpen with
  | true =>
    rw [show sec.part.closing = [] from if_pos hopen] at hcloses
    cases hcloses
    exact ⟨hy, henters, nofun, fun _ => rfl⟩
  | false =>
    rw [show sec.part.closing = [.perform .closeCase] from if_neg (by simp [hopen])] at hcloses
    obtain ⟨hz', hleaves⟩ := leaves_of_closer hp hy hcloses hz
    exact ⟨hz'.trans hy, henters, fun _ => hleaves, nofun⟩

/-- Behind its sections a switch is open, and knows whether there was a default section. -/
theorem outline_of_laid {sections : List Section} {places : List (Session × Session)} (hp : p.Fits f)
    (h : Laid level (sections.map Section.part) a c places)
    (ha : a.outline = .switch d finish given :: rest)
    (hbalanced : ∀ place ∈ places, place.2.outline = place.1.outline) (hc : c.Extends f) :
    c.outline = .switch d finish (given || sections.any Section.isDefault) :: rest := by
  induction sections generalizing a given places with
  | nil =>
    cases h
    simpa using ha
  | cons sec sections ih =>
    rw [List.map_cons] at h
    cases h with
    | cons hone hrest =>
      obtain ⟨hfirst, hmore⟩ := List.forall_mem_cons.1 hbalanced
      obtain ⟨hz, -⟩ := section_of_accepts hp ha hone hfirst (hrest.extends.trans hc)
      rw [ih hrest hz hmore, List.any_cons, Bool.or_assoc]

/-- How a switch begins: with its table, and behind that a jump to the label of the default section. -/
structure Dispatches (p : Procedure) (f : Session) (ls : List Label) (d : Label) (s a : Session) :
    Prop where
  /-- Nothing but reports is before the two jumps and between them. -/
  jumps : ∃ n n' ts q, s.code.size ≤ n ∧ n < n' ∧ n' < a.code.size ∧ p.Slides s.code.size n ∧
    p.code[n]? = some (.jump (.switch ts)) ∧ List.Forall₂ f.labels.MarkedAt ls ts ∧
    p.Slides (n + 1) n' ∧ p.code[n']? = some (.jump (.always q)) ∧ f.labels.MarkedAt d q

theorem dispatches_of_openSwitch (hp : p.Fits f) {r : Answer}
    (h : (((Operation.openSwitch n).perform).run (.ofLevel level)).run s = .ok r s')
    (hf : { s' with notices := #[] : Session }.Extends f) :
    ∃ ls d finish, r = .labels ls ∧ ls.length = n ∧
      Dispatches p f ls d s s' ∧ s'.outline = .switch d finish false :: s.outline := by
  obtain ⟨ls, s₁, hrun, hdone⟩ := Emit.run_bind_eq_ok.1 h
  cases hdone
  obtain ⟨hlength, s₁, s₂, d, finish, hline, hbehind, rfl⟩ := Emit.switched_of_openSwitch hrun
  refine ⟨ls, d, finish, rfl, hlength, ?_, ?_⟩
  · have hlast : (s₂.jumped (.always d)).Extends f :=
      ((Session.extends_withConstructs _ _).trans (Session.tells_delivered _).further).trans hf
    have hmiddle : (s₁.jumped (.switch ls)).Extends f :=
      hbehind.further.trans ((s₂.extends_jumped _).trans hlast)
    obtain ⟨ts, hts, htable⟩ := hp.table hmiddle
    obtain ⟨q, hq, hdefault⟩ := hp.always hlast
    have hsize : (s₁.jumped (.switch ls)).code.size = s₁.code.size + 1 := by simp
    have hle := hbehind.further.size
    refine ⟨s₁.code.size, s₂.code.size, ts, q, hline.further.size, by omega, ?_,
      hline.slides hp ((s₁.extends_jumped _).trans hmiddle), htable, hts, ?_, hdefault, hq⟩
    · simp
    · rw [← hsize]
      exact hbehind.slides hp ((s₂.extends_jumped _).trans hlast)
  · rfl

/-- How a switch ends: at its end label. A label of the default section that was not given is marked just
before. -/
structure Ends (p : Procedure) (f : Session) (d finish : Label) (given : Bool) (c s : Session) :
    Prop where
  /-- Nothing but reports is there. -/
  slides : p.Slides c.code.size s.code.size
  /-- Where the end label is marked. -/
  finish : ∃ q, c.code.size ≤ q ∧ f.labels.MarkedAt finish q ∧ p.Slides q s.code.size
  /-- Where the label of the default section is marked. -/
  default : given = false → ∃ q, c.code.size ≤ q ∧ f.labels.MarkedAt d q ∧ p.Slides q s.code.size

theorem ends_of_closeSwitch (hp : p.Fits f) (hc : c.outline = .switch d finish given :: rest)
    (h : Takes level [.perform .closeSwitch] c s) (hs : s.Extends f) :
    s.outline = rest ∧ Ends p f d finish given c s := by
  obtain ⟨cs, hcs, rfl⟩ := Session.constructs_of_switch hc
  obtain ⟨s₀, hrun, rfl⟩ := h.done rfl
  obtain ⟨s₁, s₂, hfirst, hmiddle, hlast, hfinish, hdefault⟩ := Emit.tells_closeSwitch hcs hrun
  have hlast := hlast.trans s₀.tells_delivered
  have hsome := hmiddle.trans hlast
  have hall := hfirst.trans hsome
  have hmarked := s₀.tells_delivered.further.trans hs
  refine ⟨?_, hall.slides hp hs, ⟨_, ?_, hmarked.marks _ _ hfinish, hlast.slides hp hs⟩, fun hgiven =>
    ⟨_, hfirst.further.size, ?_, hsome.slides hp hs⟩⟩
  · rw [Session.outline, hall.constructs]
    rfl
  · exact Nat.le_trans hfirst.further.size hmiddle.further.size
  · exact (hlast.further.trans hs).marks _ _ (hdefault hgiven)

/-- The label that a switch goes to with an integer. -/
def GoesTo (ls : List Label) (d : Label) (z : Int) (l : Label) : Prop :=
  (∃ i : Nat, z = i ∧ ls[i]? = some l) ∨ (¬ (0 ≤ z ∧ z < ls.length) ∧ l = d)

/-- A switch goes to the section that is selected. -/
theorem goesTo_of_selected {z : Int} (h : sec.Selected ls z) (d : Label) :
    GoesTo ls d z (sec.label d) := by
  cases sec with
  | case l name body => exact .inl h
  | default body closed => exact .inr ⟨h, rfl⟩

/-- Where no section is selected, there is no case of that number and no default section. -/
theorem not_selected {sections : List Section} {z : Int}
    (hcases : ∀ l ∈ ls, ∃ name body, Section.case l name body ∈ sections)
    (hnone : ∀ sec ∈ sections, ¬ sec.Selected ls z) :
    ¬ (0 ≤ z ∧ z < ls.length) ∧ sections.any Section.isDefault = false := by
  have hout : ¬ (0 ≤ z ∧ z < ls.length) := by
    rintro ⟨hpos, hlt⟩
    obtain ⟨i, rfl⟩ := Int.eq_ofNat_of_zero_le hpos
    have hi : i < ls.length := by omega
    obtain ⟨name, body, hsec⟩ := hcases ls[i] (List.getElem_mem hi)
    exact hnone _ hsec ⟨i, rfl, List.getElem?_eq_getElem hi⟩
  refine ⟨hout, List.any_eq_false.2 fun sec hsec hdefault => ?_⟩
  cases sec with
  | case l name body => cases hdefault
  | default body closed => exact hnone _ hsec hout

/-- A run through the beginning of a switch takes the selector and gets to where it goes to. -/
theorem Dispatches.along (h : Dispatches p f ls d s a) (hls : ls.length ≤ 1 <<< 63) {P : Nat → Prop}
    (hP : ∀ i, s.code.size ≤ i → i < a.code.size → P i) {m : Machine} {k : WordKind} {v : BitVec k.bits}
    {stack : List Value} (hstack : m.frame.stack = .scalar (.word k v) :: stack) {l : Label} {q : Nat}
    (hgoes : GoesTo ls d (Scalar.wordValue k v) l) (hq : f.labels.MarkedAt l q) :
    ∃ m', p.Along P s.code.size m q m' ∧ (m.withStack stack).Alike m' := by
  obtain ⟨n, n', ts, q', hsn, hn, hn', hbefore, htable, hts, hbetween, hjump, hq'⟩ := h.jumps
  obtain ⟨m₁, hfirst, halike⟩ := hbefore.along (fun i hi hi' => hP i hi (by omega)) m
  have hn₁ : P n := hP n hsn (by omega)
  have hlength := hts.length_eq
  have hwide : ts.length ≤ 1 <<< 63 := by omega
  have hrun := Jump.run_switch hwide (halike.stack.trans hstack)
  rcases hgoes with ⟨i, hi, hl⟩ | ⟨hout, rfl⟩
  · obtain ⟨hi', rfl⟩ := List.getElem?_eq_some_iff.1 hl
    have hit : i < ts.length := hlength ▸ hi'
    have htarget : ts[(i : Int).toNat]? = some q := by
      rw [Int.toNat_natCast, List.getElem?_eq_getElem hit]
      exact congrArg some ((hts.get hi' hit).unique hq)
    rw [hi, if_neg (by omega), htarget] at hrun
    exact ⟨_, hfirst.trans (.jump hn₁ htable hrun (.here _ _)), halike.withStack stack⟩
  · cases hq'.unique hq
    have hnone : (if Scalar.wordValue k v < 0 then none else ts[(Scalar.wordValue k v).toNat]?) = none := by
      split
      · rfl
      · exact List.getElem?_eq_none (by omega)
    rw [hnone] at hrun
    obtain ⟨m₂, hsecond, halike'⟩ :=
      hbetween.along (fun i hi hi' => hP i (by omega) (by omega)) (m₁.withStack stack)
    refine ⟨m₂, hfirst.trans (.jump hn₁ htable hrun (hsecond.trans ?_)), (halike.withStack stack).trans halike'⟩
    exact .always (hP n' (by omega) hn') hjump (.here _ _)

/-- A switch as it is **built**: the sessions before it, before and behind its sections, and behind it,
and those around the bodies. -/
structure Built (level : TraceDetail) (p : Procedure) (f : Session) (sections : List Section)
    (ls : List Label) (d finish : Label) (s a c s' : Session) (places : List (Session × Session)) :
    Prop where
  /-- The procedure fits the last session. -/
  fits : p.Fits f
  /-- The table and the jump behind it. -/
  dispatches : Dispatches p f ls d s a
  /-- The switch is open before its sections. -/
  opened : a.outline = .switch d finish false :: s.outline
  /-- The sections. -/
  laid : Laid level (sections.map Section.part) a c places
  /-- Their bodies are balanced. -/
  balanced : ∀ place ∈ places, place.2.outline = place.1.outline
  /-- The end. -/
  ends : Ends p f d finish (sections.any Section.isDefault) c s'
  /-- The switch is not open behind its end. -/
  closed : s'.outline = s.outline
  /-- The last session is behind the sections. -/
  further : c.Extends f
  /-- The code of the end is behind the sections. -/
  size_le : c.code.size ≤ s'.code.size

namespace Built

variable {sections : List Section} {places : List (Session × Session)} {P : Nat → Prop} {m : Machine}
  {k : WordKind} {v : BitVec k.bits} {stack : List Value}

theorem size_lt (h : Built level p f sections ls d finish s a c s' places) :
    s.code.size ≤ a.code.size ∧ a.code.size ≤ c.code.size := by
  obtain ⟨n, n', ts, q, hsn, hn, hn', -⟩ := h.dispatches.jumps
  exact ⟨by omega, h.laid.extends.size⟩

/-- One of the sections: how it begins and ends, in no body. -/
theorem at_section (h : Built level p f sections ls d finish s a c s' places)
    (hmem : (sec, x, y) ∈ sections.zip places) :
    ∃ before behind z z', sections = before ++ sec :: behind ∧ a.code.size ≤ z.code.size ∧
      z'.code.size ≤ c.code.size ∧ Enters p f (sec.label d) z x ∧
      (sec.isOpen = false → Leaves p f finish y z') ∧ (sec.isOpen = true → z' = y) ∧
      (behind = [] → z' = c) ∧
      (∀ n, z.code.size ≤ n → n < x.code.size → Clear places n) ∧
      (∀ n, y.code.size ≤ n → n < z'.code.size → Clear places n) := by
  obtain ⟨before, behind, z, z', earlier, later, hsections, rfl, hbefore, hpart, hbehind, hin, hout⟩ :=
    h.laid.at hmem
  obtain ⟨hearlier, hlater⟩ := List.forall_mem_append.1 h.balanced
  obtain ⟨hbody, -⟩ := List.forall_mem_cons.1 hlater
  have hz' := hbehind.extends.trans h.further
  have hz := outline_of_laid h.fits hbefore h.opened hearlier (hpart.extends.trans hz')
  obtain ⟨-, henters, hleaves, hfalls⟩ := section_of_accepts h.fits hz hpart hbody hz'
  refine ⟨before, behind, z, z', hsections, hbefore.extends.size, hbehind.extends.size, henters, hleaves,
    hfalls, ?_, hin, hout⟩
  rintro rfl
  cases hbehind
  rfl

/-- What is before the sections is in no body. -/
theorem clear_before (h : Built level p f sections ls d finish s a c s' places) {i : Nat}
    (hi : i < a.code.size) : Clear places i := fun _ hplace hin =>
  absurd (Nat.lt_of_lt_of_le hi (h.laid.bounds hplace).1) (Nat.not_lt.2 hin.1)

/-- What is behind the sections is in no body. -/
theorem clear_behind (h : Built level p f sections ls d finish s a c s' places) {i : Nat}
    (hi : c.code.size ≤ i) : Clear places i := fun _ hplace hin =>
  absurd (Nat.le_trans (h.laid.bounds hplace).2.2 hi) (Nat.not_le.2 hin.2)

/-- A run gets to the body of a section that it goes to. -/
theorem enters (h : Built level p f sections ls d finish s a c s' places)
    (hP : ∀ i, s.code.size ≤ i → i < s'.code.size → Clear places i → P i) (hls : ls.length ≤ 1 <<< 63)
    (hstack : m.frame.stack = .scalar (.word k v) :: stack) (hmem : (sec, x, y) ∈ sections.zip places)
    (hgoes : GoesTo ls d (Scalar.wordValue k v) (sec.label d)) :
    ∃ e, p.Along P s.code.size m x.code.size e ∧ (m.withStack stack).Alike e := by
  obtain ⟨hsa, hac⟩ := h.size_lt
  have hcs := h.size_le
  have hbounds := h.laid.bounds (List.of_mem_zip hmem).2
  obtain ⟨-, -, z, -, -, haz, -, henters, -, -, -, hclear, -⟩ := h.at_section hmem
  obtain ⟨q, hzq, hq, hslides⟩ := henters.marked
  dsimp only at hbounds
  obtain ⟨m₁, hfirst, halike⟩ := h.dispatches.along hls
    (fun i hi hi' => hP i hi (by omega) (h.clear_before hi')) hstack hgoes hq
  obtain ⟨e, hsecond, halike'⟩ := hslides.along
    (fun i hi hi' => hP i (by omega) (by omega) (hclear i (by omega) hi')) m₁
  exact ⟨e, hfirst.trans hsecond, halike.trans halike'⟩

/-- A run gets from the end of a body to the end of the switch. A section that is left open must be the
last one. -/
theorem leaves (h : Built level p f sections ls d finish s a c s' places)
    (hP : ∀ i, s.code.size ≤ i → i < s'.code.size → Clear places i → P i)
    (hopen : ∀ sec ∈ sections.dropLast, sec.isOpen = false) (hmem : (sec, x, y) ∈ sections.zip places)
    (e : Machine) : ∃ m', p.Along P y.code.size e s'.code.size m' ∧ e.Alike m' := by
  obtain ⟨hsa, hac⟩ := h.size_lt
  have hcs := h.size_le
  have hbounds := h.laid.bounds (List.of_mem_zip hmem).2
  obtain ⟨before, behind, z, z', hsections, -, hz'c, -, hleaves, hfalls, hlast, -, hclear⟩ :=
    h.at_section hmem
  dsimp only at hbounds
  cases hisOpen : sec.isOpen with
  | false =>
    obtain ⟨n, q, hyn, hnz', hslides, hq, hjump⟩ := (hleaves hisOpen).jumps
    obtain ⟨q', hcq, hq', hend⟩ := h.ends.finish
    cases hq'.unique hq
    obtain ⟨m₁, hfirst, halike⟩ := hslides.along
      (fun i hi hi' => hP i (by omega) (by omega) (hclear i hi (by omega))) e
    obtain ⟨m', hsecond, halike'⟩ := hend.along
      (fun i hi hi' => hP i (by omega) hi' (h.clear_behind (by omega))) m₁
    refine ⟨m', hfirst.trans (.always (hP n (by omega) (by omega) (hclear n hyn hnz')) hjump hsecond),
      halike.trans halike'⟩
  | true =>
    have hbehind : behind = [] := by
      by_contra hne
      have hdrop : sec ∈ sections.dropLast := by
        rw [hsections, List.dropLast_append_of_ne_nil (List.cons_ne_nil _ _), List.dropLast_cons_of_ne_nil hne]
        simp
      exact absurd (hopen sec hdrop) (by simp [hisOpen])
    obtain rfl := (hlast hbehind).symm.trans (hfalls hisOpen)
    exact h.ends.slides.along (fun i hi hi' => hP i (by omega) hi' (h.clear_behind hi)) e

/-- A run that goes to no section gets to the end of the switch. -/
theorem passes (h : Built level p f sections ls d finish s a c s' places)
    (hP : ∀ i, s.code.size ≤ i → i < s'.code.size → Clear places i → P i) (hls : ls.length ≤ 1 <<< 63)
    (hstack : m.frame.stack = .scalar (.word k v) :: stack)
    (hout : ¬ (0 ≤ Scalar.wordValue k v ∧ Scalar.wordValue k v < ls.length))
    (hdefault : sections.any Section.isDefault = false) :
    ∃ m', p.Along P s.code.size m s'.code.size m' ∧ (m.withStack stack).Alike m' := by
  obtain ⟨hsa, hac⟩ := h.size_lt
  have hcs := h.size_le
  obtain ⟨q, hcq, hq, hend⟩ := h.ends.default hdefault
  obtain ⟨m₁, hfirst, halike⟩ := h.dispatches.along hls
    (fun i hi hi' => hP i hi (by omega) (h.clear_before hi')) hstack (.inr ⟨hout, rfl⟩) hq
  obtain ⟨m', hsecond, halike'⟩ := hend.along
    (fun i hi hi' => hP i (by omega) hi' (h.clear_behind (by omega))) m₁
  exact ⟨m', hfirst.trans hsecond, halike.trans halike'⟩

end Built

/-- An accepted switch with balanced bodies is built. -/
theorem built_of_takes {sections : List Section} {places : List (Session × Session)} {r : Answer}
    (hp : p.Fits f)
    (hopens : (((Operation.openSwitch n).perform).run (.ofLevel level)).run s = .ok r a)
    (hlaid : Laid level (sections.map Section.part) { a with notices := #[] } c places)
    (hbalanced : ∀ place ∈ places, place.2.outline = place.1.outline)
    (hcloses : Takes level [.perform .closeSwitch] c s') (hcs : c.Extends s') (hs' : s'.Extends f) :
    ∃ ls d finish, r = .labels ls ∧ ls.length = n ∧
      Built level p f sections ls d finish s { a with notices := #[] } c s' places := by
  have hcf := hcs.trans hs'
  obtain ⟨ls, d, finish, hr, hlength, hdispatches, hopened⟩ :=
    dispatches_of_openSwitch hp hopens (hlaid.extends.trans hcf)
  have hc := outline_of_laid hp hlaid hopened hbalanced hcf
  rw [Bool.false_or] at hc
  obtain ⟨hclosed, hends⟩ := ends_of_closeSwitch hp hc hcloses hs'
  exact ⟨ls, d, finish, hr, hlength, hp, ⟨hdispatches.jumps⟩, hopened, hlaid, hbalanced, hends, hclosed,
    hcf, hcs.size⟩

end Switch

namespace Builder

open Switch

/-- **Switches.** In every procedure that a client builds, a switch goes by the integer on the stack to
the body of the one section that is selected by it, wherever that section stands, and to none if none is
selected. A run gets to the body without the selector, and nothing else is changed on the way; and once it
has crossed the body it gets to the end of the switch, and again nothing is changed. The bodies may be
anything that leaves the open constructs as they were. -/
theorem switch_selects (number : Nat) (name : String) (signature : Signature) (sink : Sink)
    (level : TraceDetail) (cs cs' : List Call) (n : Nat) (sections : List Section) (ls : List Label)
    (b : Builder) (p : Procedure)
    (hb : (begin number name signature sink level).builder.after cs = b)
    (hissued : ∀ call ∈ cs ++ (switchCalls n sections ++ cs'), ∀ l ∈ call.handed, l.Issued)
    (hlabels : (b.perform (.openSwitch n)).result = .ok (.labels ls)) (hn : n ≤ 1 <<< 63)
    (hcases : ∀ l ∈ ls, ∃ name body, Section.case l name body ∈ sections)
    (hopen : ∀ sec ∈ sections.dropLast, sec.isOpen = false)
    (hbalanced : Balanced ((b.after [.perform (.openSwitch n)]).bodies (sections.map Section.part)))
    (hp : (b.after (switchCalls n sections ++ cs')).finish.result = .ok p) :
    let b' := b.after (switchCalls n sections)
    let bodies := (b.after [.perform (.openSwitch n)]).bodies (sections.map Section.part)
    ls.length = n ∧ b'.outline = b.outline ∧
      ∀ (m : Machine) (k : WordKind) (v : BitVec k.bits) (stack : List Value),
        m.frame.stack = .scalar (.word k v) :: stack →
          (∀ sec x y, (sec, x, y) ∈ sections.zip bodies → sec.Selected ls (Scalar.wordValue k v) →
            ∃ e, p.Along (Outside b b' bodies) b.position m x.position e ∧ (m.withStack stack).Alike e ∧
              ∀ e', p.Crosses x.position y.position e e' →
                ∃ m', p.Along (Outside b b' bodies) y.position e' b'.position m' ∧ e'.Alike m') ∧
          ((∀ sec ∈ sections, ¬ sec.Selected ls (Scalar.wordValue k v)) →
            ∃ m', p.Along (Outside b b' bodies) b.position m b'.position m' ∧
              (m.withStack stack).Alike m') := by
  intro b' bodies
  obtain ⟨sink', s, s', f, rfl, hsound, htakes, hsf, hfits, hinside⟩ := takes_within hb hissued hp
  -- the sessions before the sections and behind them
  obtain ⟨hfirst, hmore⟩ := List.forall_mem_cons.1 hinside
  obtain ⟨hsections, hlast⟩ := List.forall_mem_append.1 hmore
  obtain ⟨a, hopens, hrest⟩ := Takes.uncons htakes
  have hsa := hopens.grows hsound.inner (List.forall_mem_singleton.2 hfirst)
  obtain ⟨c, hmiddle, hcloses⟩ := hrest.split
  obtain ⟨places, hlaid, hc⟩ := laid_of_takes (hsa.inner hsound.inner) hsections hmiddle
  have hcs := (hcloses.grows hc hlast).extends
  have hopened := hopens.taking sink'
  obtain ⟨r, a, hrun, rfl⟩ := hopens.one
  have hr := perform_ok (b := taking sink' level s) rfl hrun
  rw [hr] at hlabels
  cases hlabels
  have hb' : b' = taking sink' level s' := htakes.taking sink'
  have hlast' : s'.code.size = b'.position := by rw [hb']; rfl
  have hbodies : bodies = (taking sink' level { a with notices := #[] }).bodies (sections.map Section.part) :=
    congrArg (Builder.bodies · _) hopened
  rw [hopened, balanced_iff hlaid] at hbalanced
  obtain ⟨ls', d, finish, hls', hlength, hbuilt⟩ := built_of_takes hfits hrun hlaid hbalanced hcloses hcs hsf.extends
  cases hls'
  have hP : ∀ i, s.code.size ≤ i → i < s'.code.size → Clear places i →
      Outside (taking sink' level s) b' bodies i := by
    intro i hi hi' hclear
    rw [hb', hbodies, outside_iff hlaid]
    exact ⟨hi, hi', hclear⟩
  refine ⟨hlength, ?_, fun m k v stack hstack => ⟨?_, ?_⟩⟩
  · rw [hb']
    exact hbuilt.closed
  · intro sec x y hmem hselected
    rw [hbodies] at hmem
    obtain ⟨x, y, hplace, rfl, rfl⟩ := hlaid.of_mem_bodies hmem
    obtain ⟨e, henters, halike⟩ := hbuilt.enters hP (by omega) hstack hplace (goesTo_of_selected hselected d)
    exact ⟨e, henters, halike, fun e' _ => hlast' ▸ hbuilt.leaves hP hopen hplace e'⟩
  · intro hnone
    obtain ⟨hout, hdefault⟩ := not_selected hcases hnone
    exact hlast' ▸ hbuilt.passes hP (by omega) hstack hout hdefault

/-- The label of the only case of a switch that comes first in a procedure. -/
def onlyCase : Label := ⟨1, 3⟩

/-- Its sections, with the default section first. -/
def defaultFirst : List Section := [.default [] true, .case onlyCase "a" []]

/-- A procedure with nothing but that switch. -/
def switched : Procedure where
  name := "f"
  signature := ⟨[], none⟩
  locals := []
  code := #[.jump (.switch [3]), .jump (.always 2), .jump (.always 4), .jump (.always 4), .ret]

/-- The session before the sections. -/
def dispatched : Session where
  name := "f"
  signature := ⟨[], none⟩
  sink := .log
  constructs := [.switch ⟨1, 1⟩ ⟨1, 2⟩ false]
  labels := ⟨1, #[⟨none, false⟩, ⟨none, true⟩, ⟨none, false⟩, ⟨none, true⟩]⟩
  code := #[.jump (.switch [onlyCase]), .jump (.always ⟨1, 1⟩)]
  finish := ⟨1, 0⟩

/-- The session in the default section. -/
def inDefault : Session := { dispatched with
  constructs := [.switch ⟨1, 1⟩ ⟨1, 2⟩ true]
  labels := ⟨1, #[⟨none, false⟩, ⟨some 2, true⟩, ⟨none, false⟩, ⟨none, true⟩]⟩ }

/-- The session behind the default section. -/
def behindDefault : Session := { inDefault with
  labels := ⟨1, #[⟨none, false⟩, ⟨some 2, true⟩, ⟨none, true⟩, ⟨none, true⟩]⟩
  code := dispatched.code.push (.jump (.always ⟨1, 2⟩)) }

/-- The session in the section of the case. -/
def inCase : Session := { behindDefault with
  labels := ⟨1, #[⟨none, false⟩, ⟨some 2, true⟩, ⟨none, true⟩, ⟨some 3, true⟩]⟩ }

/-- The session behind the sections. -/
def behindCase : Session := { inCase with code := behindDefault.code.push (.jump (.always ⟨1, 2⟩)) }

/-- The session behind the switch. -/
def behindSwitch : Session := { behindCase with
  constructs := []
  labels := ⟨1, #[⟨none, false⟩, ⟨some 2, true⟩, ⟨some 4, true⟩, ⟨some 3, true⟩]⟩ }

theorem after_dispatched : plain.after [.perform (.openSwitch 1)] = taking .log .off dispatched := rfl

theorem after_default : (taking .log .off dispatched).after [.perform .openDefault] = taking .log .off inDefault ∧
    (taking .log .off inDefault).after [.perform .closeCase] = taking .log .off behindDefault := ⟨rfl, rfl⟩

theorem after_case : (taking .log .off behindDefault).after [.perform (.openCase onlyCase "a")] =
      taking .log .off inCase ∧
    (taking .log .off inCase).after [.perform .closeCase] = taking .log .off behindCase := ⟨rfl, rfl⟩

theorem bodies_defaultFirst : (taking .log .off dispatched).bodies (defaultFirst.map Section.part) =
    [(taking .log .off inDefault, taking .log .off inDefault), (taking .log .off inCase, taking .log .off inCase)] := by
  have hbehind : (taking .log .off dispatched).after (Section.default [] true).part.calls =
      taking .log .off behindDefault := by
    show (taking .log .off dispatched).after ([.perform .openDefault] ++ [.perform .closeCase]) = _
    rw [after_append, after_default.1, after_default.2]
  show [(_, _)] ++ Builder.bodies _ _ = _
  rw [hbehind]
  exact congrArg₂ (fun x y => [(x, x), (y, y)]) after_default.1 after_case.1

theorem finish_switched :
    (plain.after (switchCalls 1 defaultFirst ++ [])).finish.result = .ok switched := by
  have hcalls : switchCalls 1 defaultFirst ++ [] =
      [.perform (.openSwitch 1)] ++ ([.perform .openDefault] ++ ([.perform .closeCase] ++
        ([.perform (.openCase onlyCase "a")] ++ ([.perform .closeCase] ++ [.perform .closeSwitch])))) := rfl
  have hclose : (taking .log .off behindCase).after [.perform .closeSwitch] = taking .log .off behindSwitch := rfl
  rw [hcalls]
  simp only [after_append, after_dispatched, after_default, after_case, hclose]
  with_unfolding_all rfl

theorem issued_onlyCase : onlyCase.Issued :=
  .answered 1 "f" ⟨[], none⟩ .log .off [] (.openSwitch 1) (.labels [onlyCase]) onlyCase (by simp)
    (by simp [Operation.handed]) rfl (by simp [Answer.issued])

/-- A selector that is too large for an index. -/
def largeSelector : Machine := ⟨⟨#[], #[], [.scalar (.word .u64 0x8000000000000000#64)]⟩, {}⟩

/-- With such a selector a run gets to the default section, wherever it stands. -/
theorem switch_selects_default :
    ∃ e, switched.Along
        (Outside plain (plain.after (switchCalls 1 defaultFirst))
          ((plain.after [.perform (.openSwitch 1)]).bodies (defaultFirst.map Section.part)))
        0 largeSelector 2 e ∧ (largeSelector.withStack []).Alike e := by
  have hissued : ∀ call ∈ [] ++ (switchCalls 1 defaultFirst ++ []), ∀ l ∈ call.handed, l.Issued := by
    simp [switchCalls, defaultFirst, Section.part, Section.opener, Section.isOpen, Part.calls, Call.handed,
      Operation.handed, issued_onlyCase]
  have hcases : ∀ l ∈ [onlyCase], ∃ name body, Section.case l name body ∈ defaultFirst := by
    simp [defaultFirst]
  have hbalanced : Balanced ((plain.after [.perform (.openSwitch 1)]).bodies (defaultFirst.map Section.part)) := by
    rw [after_dispatched, bodies_defaultFirst]
    simp [Balanced]
  obtain ⟨-, -, hrun⟩ := switch_selects 1 "f" ⟨[], none⟩ .log .off [] [] 1 defaultFirst [onlyCase] plain
    switched rfl hissued rfl (by omega) hcases (by decide) hbalanced finish_switched
  have hout : (Section.default [] true).Selected [onlyCase] (Scalar.wordValue .u64 0x8000000000000000#64) := by
    rw [Section.Selected]
    decide
  obtain ⟨e, halong, halike, -⟩ := (hrun largeSelector .u64 _ [] rfl).1 (.default [] true)
    (taking .log .off inDefault) (taking .log .off inDefault)
    (by rw [after_dispatched, bodies_defaultFirst]; exact List.mem_cons_self) hout
  exact ⟨e, halong, halike⟩

end Builder

end Stackwright
