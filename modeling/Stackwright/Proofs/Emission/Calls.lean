import Stackwright.Proofs.Emission.Moves

/-! # Every emission call grows its session

The statement of `Emit.Gives` for each emission call, in the order in which the calls are built from one
another, and at last for **every operation** of a builder: an accepted operation whose labels are inside
the procedure grows the session, and the labels that it answers are inside the procedure. -/

namespace Stackwright

namespace Emit

/-! ## Slots and constants -/

theorem moves_arg (i : Nat) : (arg i).Moves := by
  refine moves_get.bind fun s => ?_
  dsimp only
  split
  · exact moves_pure _
  · exact gives_refuse _

theorem moves_loadArg (a : Argument) : (loadArg a).Moves :=
  (moves_arg _).bind fun _ => moves_traced _ _

theorem moves_storeArg (a : Argument) : (storeArg a).Moves :=
  (moves_arg _).bind fun _ => moves_traced _ _

theorem moves_loadArgAddress (a : Argument) : (loadArgAddress a).Moves :=
  (moves_arg _).bind fun _ => moves_traced _ _

theorem moves_newLocal (t : Ty) (name : String) : (newLocal t name).Moves := by
  refine moves_get.bind fun s => Moves.bind (gives_modify fun _ => .declare t name) fun _ => ?_
  exact (moves_note _).bind fun _ => moves_pure _

theorem moves_nameOf (l : Local) : (nameOf l).Moves := by
  refine moves_get.bind fun s => ?_
  split
  · exact moves_pure _
  · exact moves_pure _

theorem moves_loadLocal (l : Local) : (loadLocal l).Moves :=
  (moves_nameOf l).bind fun _ => (moves_note _).bind fun _ => (moves_op _).bind fun _ =>
    moves_probe _

theorem moves_storeLocal (l : Local) : (storeLocal l).Moves :=
  (moves_nameOf l).bind fun _ => (moves_note _).bind fun _ => (moves_probe _).bind fun _ =>
    moves_op _

theorem moves_loadLocalAddress (l : Local) : (loadLocalAddress l).Moves :=
  (moves_nameOf l).bind fun _ => (moves_note _).bind fun _ => (moves_op _).bind fun _ =>
    moves_probe _

theorem moves_loadText (s : String) : (loadText s).Moves := moves_traced _ _

theorem moves_loadNull : loadNull.Moves := moves_traced _ _

theorem moves_loadToken (t : Ty) : (loadToken t).Moves := moves_traced _ _

theorem moves_call (m : Method) : (call m).Moves := moves_traced _ _

theorem moves_loadInt (n : Int) : (loadInt n).Moves := moves_traced _ _

theorem moves_loadScalar (s : Scalar) : (loadScalar s).Moves := by
  unfold loadScalar
  split
  case h_2 => exact gives_refuse _
  case h_6 => exact moves_loadInt _
  all_goals exact moves_traced _ _

theorem moves_loadConstant (c : Constant) : (loadConstant c).Moves := by
  cases c with
  | null => exact moves_loadNull
  | text s => exact moves_loadText s
  | char c => exact gives_refuse _
  | scalar s => exact moves_loadScalar s
  | handle t => exact (moves_loadToken t).bind fun _ => moves_call _
  | enumeration t raw =>
    refine (moves_note _).bind fun _ => ?_
    split
    · exact gives_refuse _
    · split
      · exact moves_loadScalar _
      · exact gives_refuse _

theorem moves_load (o : Operand) : (load o).Moves := by
  rcases o with c | a | l
  · exact moves_loadConstant c
  · exact moves_loadArg a
  · exact moves_loadLocal l

theorem moves_store (o : Operand) : (store o).Moves := by
  rcases o with c | a | l
  · exact gives_refuse _
  · exact moves_storeArg a
  · exact moves_storeLocal l

theorem moves_loadByAddress (o : Operand) : (loadByAddress o).Moves := by
  rcases o with c | a | l
  · exact moves_loadConstant c
  · exact Gives.ite (moves_loadArgAddress a) (moves_loadArg a)
  · exact Gives.ite (moves_loadLocalAddress l) (moves_loadLocal l)

theorem moves_increment (o : Operand) : (increment o).Moves :=
  (moves_load o).bind fun _ => (moves_loadInt 1).bind fun _ => (moves_traced _ _).bind fun _ =>
    moves_store o

theorem moves_decrement (o : Operand) : (decrement o).Moves :=
  (moves_load o).bind fun _ => (moves_loadInt 1).bind fun _ => (moves_traced _ _).bind fun _ =>
    moves_store o

theorem moves_zeroThrough (t : Ty) : (zeroThrough t).Moves := moves_traced _ _

theorem moves_loadZero (t : Ty) : (loadZero t).Moves := by
  unfold loadZero
  split
  case h_5 => exact moves_loadInt 0
  case h_6 =>
    refine Gives.ite ?_ moves_loadNull
    exact (moves_newLocal t _).bind fun _ => (moves_loadByAddress _).bind fun _ =>
      (moves_zeroThrough t).bind fun _ => moves_load _
  all_goals exact moves_loadScalar _

/-! ## Objects, calls and conversions -/

theorem moves_makeBox (t : Ty) : (makeBox t).Moves := moves_traced _ _

theorem moves_openBox (t : Ty) : (openBox t).Moves := moves_traced _ _

theorem moves_loadThrough (t : Ty) : (loadThrough t).Moves := moves_traced _ _

theorem moves_storeThrough (t : Ty) : (storeThrough t).Moves := moves_traced _ _

theorem moves_checkCast (t : Ty) : (checkCast t).Moves := moves_traced _ _

theorem moves_applyConversion (c : Conversion) : (applyConversion c).Moves := by
  cases c with
  | identity => exact moves_pure _
  | upcast => exact moves_pure _
  | numeric k => exact moves_traced _ _
  | openBox t readThrough =>
    exact (moves_openBox t).bind fun _ => Gives.ite (moves_loadThrough t) (moves_pure _)
  | box t loadFirst =>
    cases loadFirst with
    | true => exact (moves_loadThrough t).bind fun _ => moves_makeBox t
    | false => exact moves_makeBox t
  | cast t => exact moves_checkCast t

theorem moves_convert (source target : Ty) (isAddress : Bool) :
    (convert source target isAddress).Moves :=
  (gives_ofExcept (Q := fun _ => True) fun _ _ => trivial).bind fun c _ => moves_applyConversion c

theorem moves_convertTop (source target : Ty) : (convertTop source target).Moves :=
  moves_convert source target false

theorem moves_convertPointee (source target : Ty) : (convertPointee source target).Moves :=
  moves_convert source target true

theorem moves_assign (l : Local) (o : Operand) : (assign l o).Moves :=
  (moves_load o).bind fun _ => (moves_convertTop _ _).bind fun _ => moves_storeLocal l

theorem moves_newLocalWith (t : Ty) (name : String) (init : Operand) :
    (newLocalWith t name init).Moves :=
  (moves_newLocal t name).bind fun l => (moves_assign l init).bind fun _ => moves_pure l

theorem moves_requireCount (method : String) (declared supplied : Nat) :
    (requireCount method declared supplied).Moves :=
  Gives.ite (moves_pure ()) (gives_refuse _)

theorem moves_loadParameter (o : Operand) (t : Ty) : (loadParameter o t).Moves :=
  (moves_load o).bind fun _ => Gives.ite (moves_pure ()) (moves_convertTop _ _)

theorem moves_loadParameters (os : List Operand) (ts : List Ty) : (loadParameters os ts).Moves := by
  induction os generalizing ts with
  | nil => exact moves_pure ()
  | cons o os ih =>
    cases ts with
    | nil => exact moves_pure ()
    | cons t ts => exact (moves_loadParameter o t).bind fun _ => ih ts

theorem moves_loadReceiver (m : Method) (o : Operand) : (loadReceiver m o).Moves :=
  (moves_loadByAddress o).bind fun _ => moves_convertPointee _ _

theorem moves_callWith (receiver : Option Operand) (m : Method) (params : List Operand) :
    (callWith receiver m params).Moves := by
  have hrest : Moves (do loadParameters params m.params; call m) :=
    (moves_loadParameters params m.params).bind fun _ => moves_call m
  refine (moves_requireCount _ _ _).bind fun _ => ?_
  cases receiver with
  | none => exact hrest
  | some o =>
    dsimp only
    split
    · exact hrest
    · exact (moves_loadReceiver m o).bind fun _ => hrest

theorem moves_instantiate (c : Constructor) (params : List Operand) :
    (instantiate c params).Moves :=
  (moves_requireCount _ _ _).bind fun _ => (moves_loadParameters params c.params).bind fun _ =>
    moves_traced _ _

theorem moves_getField (f : Field) : (getField f).Moves :=
  Gives.ite (moves_traced _ _) (moves_traced _ _)

theorem moves_putField (f : Field) : (putField f).Moves :=
  Gives.ite (moves_traced _ _) (moves_traced _ _)

theorem moves_accessor (m : Member) (which : Accessor) (f : Option Method) :
    (accessor m which f).Moves := by
  cases f with
  | some f => exact moves_pure f
  | none => exact gives_refuse _

theorem moves_getMember (m : Member) : (getMember m).Moves := by
  have hshow : ∀ t : Ty, Moves (do probe t; pure t) := fun t =>
    (moves_probe t).bind fun _ => moves_pure t
  cases m with
  | field f => exact (moves_getField f).bind fun _ => hshow _
  | property p => exact (moves_accessor _ _ _).bind fun f => (moves_call f).bind fun _ => hshow _
  | method f =>
    unfold getMember
    dsimp only
    split
    · exact (moves_call f).bind fun _ => hshow _
    · exact gives_refuse _

theorem moves_putMember (m : Member) : (putMember m).Moves := by
  cases m with
  | field f => exact moves_putField f
  | property p => exact (moves_accessor _ _ _).bind fun f => moves_call f
  | method f => exact gives_refuse _

/-! ## Arrays -/

theorem moves_makeArray (element : Ty) (length : Operand) : (makeArray element length).Moves :=
  (moves_load length).bind fun _ => moves_traced _ _

theorem moves_loadLength : loadLength.Moves :=
  (moves_traced _ _).bind fun _ => moves_traced _ _

theorem moves_ofExcept (r : Except BuildError α) : (ofExcept r).Moves :=
  gives_ofExcept fun _ _ => trivial

theorem moves_loadItem (element : Ty) : (loadItem element).Moves :=
  (moves_ofExcept _).bind fun _ => (moves_traced _ _).bind fun _ => moves_probe element

theorem moves_loadItemAddress (element : Ty) : (loadItemAddress element).Moves :=
  (moves_traced _ _).bind fun _ => moves_probe element

theorem moves_storeItem (element : Ty) : (storeItem element).Moves :=
  (moves_ofExcept _).bind fun _ => (moves_note _).bind fun _ => (moves_probe element).bind fun _ =>
    moves_op _

theorem moves_itemTypeOf (array : Operand) : (itemTypeOf array).Moves := by
  unfold itemTypeOf
  split
  · exact moves_pure _
  · exact gives_refuse _

theorem moves_loadItemOf (array index : Operand) : (loadItemOf array index).Moves :=
  (moves_itemTypeOf array).bind fun element => (moves_load array).bind fun _ =>
    (moves_load index).bind fun _ =>
      Gives.ite ((moves_loadItemAddress element).bind fun _ => moves_loadThrough element)
        (moves_loadItem element)

theorem moves_storeTypedItem (array index value : Operand) :
    (storeTypedItem array index value).Moves := by
  refine (moves_itemTypeOf array).bind fun element => (moves_load array).bind fun _ =>
    (moves_load index).bind fun _ => ?_
  have hrest : ∀ {last : Emit Unit}, last.Moves →
      Moves (do load value; convertTop value.type element; last) := fun hlast =>
    (moves_load value).bind fun _ => (moves_convertTop _ _).bind fun _ => hlast
  dsimp only
  split
  · exact (moves_loadItemAddress element).bind fun _ => hrest (moves_storeThrough element)
  · exact hrest (moves_storeItem element)

theorem moves_storeItemOf (array index value : Operand) : (storeItemOf array index value).Moves :=
  Gives.ite (moves_callWith _ _ _) (moves_storeTypedItem array index value)

/-! ## Branches and conditionals -/

theorem moves_ret : ret.Moves := (moves_note _).bind fun _ => moves_record rfl

theorem moves_jumpTo {l : Label} (hl : l.id ≠ 0) : (jumpTo l).Moves :=
  (moves_note _).bind fun _ => moves_jump (inside_one hl)

theorem moves_jumpIfTrue {l : Label} (hl : l.id ≠ 0) : (jumpIfTrue l).Moves :=
  (moves_note _).bind fun _ => moves_jump (inside_one hl)

theorem moves_jumpIfFalse {l : Label} (hl : l.id ≠ 0) : (jumpIfFalse l).Moves :=
  (moves_note _).bind fun _ => moves_jump (inside_one hl)

theorem moves_jumpIfLess {l : Label} (hl : l.id ≠ 0) : (jumpIfLess l).Moves :=
  (moves_note _).bind fun _ => moves_jump (inside_one hl)

theorem moves_jumpIfGreater {l : Label} (hl : l.id ≠ 0) : (jumpIfGreater l).Moves :=
  (moves_note _).bind fun _ => moves_jump (inside_one hl)

theorem moves_jumpIfLessOrEqual {l : Label} (hl : l.id ≠ 0) : (jumpIfLessOrEqual l).Moves :=
  (moves_note _).bind fun _ => moves_jump (inside_one hl)

theorem gives_jumpUnless (c : Comparison) : (jumpUnless c).Gives fun l => l.id ≠ 0 :=
  gives_newLabel.bind fun l hl => (moves_note _).bind fun _ =>
    (moves_jump (j := .compare c.negated l) (inside_one hl)).bind fun _ => gives_pure hl

/-- A conditional is opened with two labels that are inside the procedure. -/
theorem moves_openConditional {otherwise finish : Label} (ho : otherwise.id ≠ 0)
    (hf : finish.id ≠ 0) : (openConstruct (.conditional otherwise finish)).Moves := by
  apply moves_openConstruct
  simp [Inside, Construct.labels, ho, hf]

theorem moves_openIfTrue : openIfTrue.Moves :=
  gives_newLabel.bind fun _ hf => gives_newLabel.bind fun _ ho => (moves_jumpIfFalse ho).bind fun _ =>
    moves_openConditional ho hf

theorem moves_openIfFalse : openIfFalse.Moves :=
  gives_newLabel.bind fun _ hf => gives_newLabel.bind fun _ ho => (moves_jumpIfTrue ho).bind fun _ =>
    moves_openConditional ho hf

theorem moves_openIf (c : Comparison) : (openIf c).Moves :=
  gives_newLabel.bind fun _ hf => (gives_jumpUnless c).bind fun _ ho => moves_openConditional ho hf

theorem moves_openIfCompared (a : Operand) (c : Comparison) (b : Operand) :
    (openIfCompared a c b).Moves :=
  (moves_load a).bind fun _ => (moves_load b).bind fun _ => moves_openIf c

theorem moves_openIfNotZero (o : Operand) : (openIfNotZero o).Moves := by
  unfold openIfNotZero
  refine Gives.ite ?_ ?_
  · exact (moves_loadZero _).bind fun _ => (moves_convertTop _ _).bind fun _ =>
      (moves_load o).bind fun _ => (moves_convertTop _ _).bind fun _ =>
        (moves_call _).bind fun _ => moves_openIfFalse
  · exact (moves_loadZero _).bind fun _ => (moves_load o).bind fun _ => moves_openIf _

theorem moves_loadTextLength (l : Local) : (loadTextLength l).Moves :=
  (moves_loadLocal l).bind fun _ => (moves_call _).bind fun _ => moves_loadInt 0

theorem moves_openIfNotEmpty (l : Local) : (openIfNotEmpty l).Moves :=
  (moves_loadTextLength l).bind fun _ => moves_openIf _

theorem gives_nextAlternative : nextAlternative.Gives fun finish => finish.id ≠ 0 := by
  refine gives_takeConditional.bind fun p hp => ?_
  have ho : p.1.id ≠ 0 := hp p.1 (by simp)
  have hf : p.2.id ≠ 0 := hp p.2 (by simp)
  exact (moves_jumpTo hf).bind fun _ => (moves_markHere ho).bind fun _ => gives_pure hf

theorem moves_openElse : openElse.Moves :=
  Gives.bind gives_nextAlternative fun _ hf => moves_openConditional hf hf

theorem moves_openElseIf (a : Operand) (c : Comparison) (b : Operand) : (openElseIf a c b).Moves :=
  Gives.bind gives_nextAlternative fun _ hf => (moves_load a).bind fun _ => (moves_load b).bind fun _ =>
    (gives_jumpUnless c).bind fun _ ho => moves_openConditional ho hf

theorem moves_openElseIfEmpty (l : Local) : (openElseIfEmpty l).Moves :=
  Gives.bind gives_nextAlternative fun _ hf => (moves_loadTextLength l).bind fun _ =>
    (gives_jumpUnless _).bind fun _ ho => moves_openConditional ho hf

theorem moves_closeIf : closeIf.Moves := by
  refine gives_takeConditional.bind fun p hp => ?_
  have ho : p.1.id ≠ 0 := hp p.1 (by simp)
  have hf : p.2.id ≠ 0 := hp p.2 (by simp)
  dsimp only
  split
  · exact moves_markHere hf
  · exact (moves_markHere ho).bind fun _ => moves_markHere hf

/-! ## Loops and switches -/

theorem gives_newLoop (slot : Option Local) (bound : Operand) :
    (newLoop slot bound).Gives fun loop => Inside loop.labels := by
  refine moves_get.bind fun s => Moves.bind (gives_modify fun _ => .loop) fun _ =>
    gives_newLabel.bind fun _ hb => gives_newLabel.bind fun _ ht => gives_pure ?_
  simp [Inside, LoopState.labels, hb, ht]

theorem moves_openFor (index : Option Local) (start bound : Operand) :
    (openFor index start bound).Moves := by
  refine (gives_newLoop index bound).bind fun loop hloop => ?_
  have hbody : loop.body.id ≠ 0 := hloop _ List.mem_cons_self
  have hrest : Moves (do
      markHere loop.body
      openConstruct (.counted loop)
      pure loop.handle) :=
    (moves_markHere hbody).bind fun _ => Moves.bind (moves_openConstruct hloop) fun _ =>
      moves_pure _
  cases index with
  | some l =>
    have htest : loop.test.id ≠ 0 := hloop _ (by simp [LoopState.labels])
    exact (moves_load start).bind fun _ => (moves_storeLocal l).bind fun _ =>
      (moves_jumpTo htest).bind fun _ => hrest
  | none => exact hrest

theorem moves_markExit {loop : LoopState} (h : Inside loop.labels) : (markExit loop).Moves := by
  unfold markExit
  split
  · rename_i l hl
    apply moves_markHere
    exact h l (by simp [LoopState.labels, hl])
  · exact moves_pure ()

theorem moves_closeFor : closeFor.Moves := by
  refine gives_takeCounted.bind fun loop hloop => ?_
  have hexit : (markExit loop).Moves := moves_markExit hloop
  have hbody : loop.body.id ≠ 0 := hloop _ List.mem_cons_self
  have htest : loop.test.id ≠ 0 := hloop _ (by simp [LoopState.labels])
  have hback : Moves (do jumpIfLess loop.body; markExit loop) :=
    (moves_jumpIfLess hbody).bind fun _ => hexit
  dsimp only
  split
  · rename_i l hl
    refine (moves_loadLocal l).bind fun _ => (moves_loadInt 1).bind fun _ =>
      (moves_traced _ _).bind fun _ => (moves_storeLocal l).bind fun _ =>
        (moves_markHere htest).bind fun _ => (moves_loadLocal l).bind fun _ =>
          (moves_load loop.bound).bind fun _ => ?_
    split
    · exact moves_loadLength.bind fun _ => hback
    · exact hback
  · exact (moves_jumpTo hbody).bind fun _ => hexit

theorem moves_openEach (l : Local) (element : Ty) (enumerator : Local) (getCurrent : Method) :
    (openEach l element enumerator getCurrent).Moves := by
  refine (gives_newLoop _ _).bind fun loop hloop => ?_
  have hbody : loop.body.id ≠ 0 := hloop _ List.mem_cons_self
  have htest : loop.test.id ≠ 0 := hloop _ (by simp [LoopState.labels])
  exact (moves_jumpTo htest).bind fun _ => (moves_markHere hbody).bind fun _ =>
    (moves_callWith _ _ _).bind fun _ => (moves_convertTop _ _).bind fun _ =>
      (moves_storeLocal l).bind fun _ => Moves.bind (moves_openConstruct hloop) fun _ =>
        moves_pure _

theorem moves_closeEach (moveNext : Method) : (closeEach moveNext).Moves := by
  refine gives_takeEnumerated.bind fun loop hloop => ?_
  have hbody : loop.body.id ≠ 0 := hloop _ List.mem_cons_self
  have htest : loop.test.id ≠ 0 := hloop _ (by simp [LoopState.labels])
  exact (moves_markHere htest).bind fun _ => (moves_callWith _ _ _).bind fun _ =>
    (moves_jumpIfTrue hbody).bind fun _ => moves_markExit hloop

/-- A loop that is found among the constructs is one of them. -/
theorem labels_of_findLoop {cs : List Construct} {h : LoopHandle} {loop : LoopState}
    (hfind : Construct.findLoop? cs h = some loop) :
    ∃ c ∈ cs, loop.labels ⊆ c.labels := by
  obtain ⟨c, hc, hloop⟩ := Option.bind_eq_some_iff.1 hfind
  refine ⟨c, List.mem_of_find?_eq_some hc, ?_⟩
  cases c <;> cases hloop <;> exact List.Subset.refl _

/-- The first break out of a loop defines the label behind it. -/
theorem gives_exitOf (h : LoopHandle) : (exitOf h).Gives fun l => l.id ≠ 0 := by
  intro t ht s s' l hs hrun
  have hget : ((get : Emit Session).run t).run s = .ok s s := rfl
  simp only [exitOf, run_bind, hget] at hrun
  split at hrun
  · cases hrun
  · rename_i loop hfind
    obtain ⟨c, hc, hsub⟩ := labels_of_findLoop hfind
    split at hrun
    · rename_i m hm
      cases hrun
      refine ⟨.refl s, hs.constructs c hc l (hsub ?_)⟩
      simp [LoopState.labels, hm]
    · have hdefine : (do
          let l ← newLabel
          modify fun s => { s with constructs := Construct.setExit h l s.constructs }
          pure l : Emit Label).Gives fun l => l.id ≠ 0 :=
        gives_newLabel.bind fun l hl =>
          Moves.bind (gives_modify fun _ => .exit h l hl) fun _ => gives_pure hl
      exact hdefine t ht s s' l hs hrun

theorem moves_leave (h : LoopHandle) : (leave h).Moves :=
  (gives_exitOf h).bind fun _ hl => (moves_note _).bind fun _ => moves_jump (inside_one hl)

theorem moves_leaveIfTrue (h : LoopHandle) : (leaveIfTrue h).Moves :=
  (gives_exitOf h).bind fun _ hl => (moves_note _).bind fun _ => moves_jump (inside_one hl)

theorem moves_leaveIfFalse (h : LoopHandle) : (leaveIfFalse h).Moves :=
  (gives_exitOf h).bind fun _ hl => (moves_note _).bind fun _ => moves_jump (inside_one hl)

theorem moves_openHead {head : Label} (h : head.id ≠ 0) :
    (openConstruct (.whileLoop head)).Moves := by
  apply moves_openConstruct
  simpa [Inside, Construct.labels] using h

theorem moves_openWhile : openWhile.Moves :=
  gives_newLabel.bind fun _ h => (moves_markHere h).bind fun _ => moves_openHead h

theorem moves_openWhileBody (c : Comparison) : (openWhileBody c).Moves :=
  gives_takeWhileHead.bind fun _ h => (moves_openIf c).bind fun _ => moves_openHead h

theorem moves_closeWhile : closeWhile.Moves :=
  gives_takeWhileHead.bind fun _ h => (moves_jumpTo h).bind fun _ => moves_closeIf

theorem gives_newLabels (n : Nat) : (newLabels n).Gives Inside := by
  induction n with
  | zero => exact gives_pure fun l hl => absurd hl List.not_mem_nil
  | succ n ih =>
    refine gives_newLabel.bind fun l hl => ih.bind fun ls hls => gives_pure ?_
    exact List.forall_mem_cons.2 ⟨hl, hls⟩

theorem moves_noteLabels (ls : List Label) : (noteLabels ls).Moves := by
  induction ls with
  | nil => exact moves_pure ()
  | cons l ls ih => exact (moves_note _).bind fun _ => ih

theorem moves_openSwitchConstruct {default finish : Label} {given : Bool} (hd : default.id ≠ 0)
    (hf : finish.id ≠ 0) : (openConstruct (.switch default finish given)).Moves := by
  apply moves_openConstruct
  simp [Inside, Construct.labels, hd, hf]

theorem gives_openSwitch (cases : Nat) : (openSwitch cases).Gives Inside := by
  refine gives_newLabel.bind fun default hd => gives_newLabel.bind fun finish hf =>
    (gives_newLabels cases).bind fun ls hls => ?_
  exact (moves_note _).bind fun _ => (moves_noteLabels ls).bind fun _ => (moves_note _).bind fun _ =>
    (moves_jump (j := .switch ls) hls).bind fun _ => (moves_jumpTo hd).bind fun _ =>
      Moves.bind (moves_openSwitchConstruct hd hf) fun _ => gives_pure hls

theorem moves_openCase {l : Label} (h : l.id ≠ 0) (name : String) : (openCase l name).Moves :=
  (moves_note _).bind fun _ => moves_markHere h

theorem moves_closeCase : closeCase.Moves :=
  gives_currentSwitch.bind fun p hp =>
    (moves_jumpTo (hp p.2.1 (by simp))).bind fun _ => moves_note _

/-- Taking the default section note is closing the switch and opening it again. -/
theorem moves_openDefault : openDefault.Moves := by
  refine gives_currentSwitch.bind fun p hp => ?_
  have hd : p.1.id ≠ 0 := hp p.1 (by simp)
  refine Moves.bind ?_ fun _ => moves_markHere hd
  intro t ht s s' a hs hrun
  cases hrun
  have hopened := Session.Change.opened (s := { s with constructs := s.constructs.drop 1 })
    (.switch p.1 p.2.1 true) hp
  exact ⟨Session.Change.closed.grows.trans hopened.grows, trivial⟩

theorem moves_closeSwitch : closeSwitch.Moves := by
  refine gives_takeSwitch.bind fun p hp => (moves_note _).bind fun _ => ?_
  have hd : p.1.id ≠ 0 := hp p.1 (by simp)
  have hf : p.2.1.id ≠ 0 := hp p.2.1 (by simp)
  dsimp only
  split
  · exact moves_markHere hf
  · exact (moves_markHere hd).bind fun _ => moves_markHere hf

/-! ## Text -/

theorem moves_toText (t : Ty) : (toText t).Moves := by
  unfold toText
  split
  · exact moves_pure ()
  · split
    · exact (moves_makeBox t).bind fun _ => moves_call _
    · exact moves_call _

theorem moves_arrayText (t : Ty) {itemText : Emit Unit} (h : itemText.Moves) :
    (arrayText t itemText).Moves :=
  (moves_newLocal _ _).bind fun array => (moves_storeLocal array).bind fun _ =>
    (moves_loadText _).bind fun _ => (moves_newLocal _ _).bind fun text =>
    (moves_storeLocal text).bind fun _ => (moves_newLocal _ _).bind fun _ =>
    (moves_openFor _ _ _).bind fun _ => (moves_loadLocal text).bind fun _ =>
    (moves_loadItemOf _ _).bind fun _ => h.bind fun _ => (moves_loadText _).bind fun _ =>
    (moves_call _).bind fun _ => (moves_storeLocal text).bind fun _ => moves_closeFor.bind fun _ =>
    (moves_loadLocal text).bind fun _ => (moves_loadText _).bind fun _ => moves_call _

theorem moves_referenceText {text : Emit Unit} (h : text.Moves) : (referenceText text).Moves :=
  (moves_traced _ _).bind fun _ => moves_loadNull.bind fun _ => (moves_openIf _).bind fun _ =>
    (moves_traced _ _).bind fun _ => (moves_loadText _).bind fun _ => moves_openElse.bind fun _ =>
      h.bind fun _ => moves_closeIf

theorem moves_toFullText (t : Ty) : (toFullText t).Moves := by
  induction t using toFullText.induct with
  | case1 element ih => exact moves_referenceText (moves_arrayText _ ih)
  | case2 t hne hvalue =>
    rw [toFullText.eq_2 t hne, if_pos hvalue]
    exact (moves_makeBox t).bind fun _ => moves_call _
  | case3 t hne hvalue =>
    rw [toFullText.eq_2 t hne, if_neg hvalue]
    exact moves_referenceText (moves_call _)

theorem moves_formatArray : formatArray.Moves := by
  refine moves_get.bind fun s => ?_
  split
  · exact moves_pure _
  · exact (moves_newLocal _ _).bind fun l =>
      Moves.bind (gives_modify fun _ => .format l) fun _ => moves_pure l

theorem moves_storeOperands (array : Local) (i : Nat) (os : List Operand) :
    (storeOperands array i os).Moves := by
  induction os generalizing i with
  | nil => exact moves_pure ()
  | cons o os ih => exact (moves_storeItemOf _ _ _).bind fun _ => ih (i + 1)

theorem moves_formatText (format : String) (operands : List Operand) :
    (formatText format operands).Moves :=
  (moves_makeArray _ _).bind fun _ => moves_formatArray.bind fun array =>
    (moves_storeLocal array).bind fun _ => (moves_storeOperands _ _ _).bind fun _ =>
      (moves_loadText _).bind fun _ => (moves_loadLocal _).bind fun _ => moves_call _

theorem moves_showTop (t : Ty) : (showTop t).Moves :=
  (moves_traced _ _).bind fun _ => (moves_toFullText t).bind fun _ =>
    (moves_newLocal _ _).bind fun top => (moves_storeLocal top).bind fun _ =>
      (moves_loadText _).bind fun _ => (moves_loadLocal top).bind fun _ => (moves_call _).bind fun _ =>
        moves_get.bind fun _ => moves_call _

end Emit

/-! ## Tracers -/

theorem Tracer.moves_silent : Tracer.silent.Moves := by
  intro T s s' hs hrun
  cases hrun
  exact .refl s

/-- At every level, showing a value grows the session. -/
theorem Tracer.moves_ofLevel (level : TraceDetail) : (Tracer.ofLevel level).Moves := by
  cases level with
  | off => exact moves_silent
  | log =>
    intro T s s' hs hrun
    cases hrun
    exact .refl s
  | full =>
    intro T s s' hs hrun
    exact (Emit.moves_showTop T _ moves_silent s s' () hs hrun).1

/-! ## Operations -/

/-- The labels that a client hands in with an operation. -/
def Operation.handed : Operation → List Label
  | .markHere l | .jumpTo l | .jumpIfTrue l | .jumpIfFalse l | .jumpIfLess l | .jumpIfGreater l
  | .jumpIfLessOrEqual l | .openCase l _ => [l]
  | _ => []

/-- The labels that an answer hands out. -/
def Answer.issued : Answer → List Label
  | .label l => [l]
  | .labels ls => ls
  | _ => []

namespace Operation

open Emit

/-- A call that has nothing to answer hands out no label. -/
theorem gives_done {e : Emit Unit} (h : e.Moves) :
    (perform.done e).Gives fun a => Inside a.issued :=
  h.bind fun _ => gives_pure fun _ hl => absurd hl List.not_mem_nil

/-- An answer that is no label hands out no label. -/
theorem gives_answer {α : Type} {e : Emit α} {f : α → Answer} (h : e.Moves)
    (hf : ∀ a, (f a).issued = []) : (f <$> e).Gives fun a => Inside a.issued := by
  have hmap : f <$> e = e >>= fun a => pure (f a) := (bind_pure_comp f e).symm
  rw [hmap]
  refine h.bind fun a => gives_pure fun l hl => ?_
  rw [hf a] at hl
  exact absurd hl List.not_mem_nil

/-- An **accepted operation** whose labels are inside the procedure grows the session, and so are the
labels that it answers. -/
theorem gives_perform (o : Operation) (ho : Inside o.handed) :
    o.perform.Gives fun a => Inside a.issued := by
  -- most calls only move on; those that answer with labels answer with labels of the session
  cases o with
  | arg i => exact gives_answer (moves_arg i) fun _ => rfl
  | newLocal t name => exact gives_answer (moves_newLocal t name) fun _ => rfl
  | newLocalWith t name init => exact gives_answer (moves_newLocalWith t name init) fun _ => rfl
  | assign l o => exact gives_done (moves_assign l o)
  | load o => exact gives_done (moves_load o)
  | store o => exact gives_done (moves_store o)
  | loadByAddress o => exact gives_done (moves_loadByAddress o)
  | increment o => exact gives_done (moves_increment o)
  | decrement o => exact gives_done (moves_decrement o)
  | loadConstant c => exact gives_done (moves_loadConstant c)
  | loadText s => exact gives_done (moves_loadText s)
  | loadNull => exact gives_done moves_loadNull
  | loadArg a => exact gives_done (moves_loadArg a)
  | storeArg a => exact gives_done (moves_storeArg a)
  | loadArgAddress a => exact gives_done (moves_loadArgAddress a)
  | loadLocal l => exact gives_done (moves_loadLocal l)
  | storeLocal l => exact gives_done (moves_storeLocal l)
  | loadLocalAddress l => exact gives_done (moves_loadLocalAddress l)
  | loadToken t => exact gives_done (moves_loadToken t)
  | loadZero t => exact gives_done (moves_loadZero t)
  | newLabel =>
    have hmap : (perform .newLabel) = Emit.newLabel >>= fun l => pure (.label l) :=
      (bind_pure_comp _ _).symm
    rw [hmap]
    refine gives_newLabel.bind fun l hl => gives_pure ?_
    simpa [Inside, Answer.issued] using hl
  | markHere l => exact gives_done (moves_markHere (ho l List.mem_cons_self))
  | jumpTo l => exact gives_done (moves_jumpTo (ho l List.mem_cons_self))
  | jumpIfTrue l => exact gives_done (moves_jumpIfTrue (ho l List.mem_cons_self))
  | jumpIfFalse l => exact gives_done (moves_jumpIfFalse (ho l List.mem_cons_self))
  | jumpIfLess l => exact gives_done (moves_jumpIfLess (ho l List.mem_cons_self))
  | jumpIfGreater l => exact gives_done (moves_jumpIfGreater (ho l List.mem_cons_self))
  | jumpIfLessOrEqual l => exact gives_done (moves_jumpIfLessOrEqual (ho l List.mem_cons_self))
  | ret => exact gives_done moves_ret
  | makeBox t => exact gives_done (moves_makeBox t)
  | openBox t => exact gives_done (moves_openBox t)
  | loadThrough t => exact gives_done (moves_loadThrough t)
  | storeThrough t => exact gives_done (moves_storeThrough t)
  | checkCast t => exact gives_done (moves_checkCast t)
  | zeroThrough t => exact gives_done (moves_zeroThrough t)
  | convertTop s t => exact gives_done (moves_convertTop s t)
  | convertPointee s t => exact gives_done (moves_convertPointee s t)
  | instantiate c params => exact gives_done (moves_instantiate c params)
  | getMember m => exact gives_answer (moves_getMember m) fun _ => rfl
  | putMember m => exact gives_done (moves_putMember m)
  | call m => exact gives_done (moves_call m)
  | callWith receiver m params => exact gives_done (moves_callWith receiver m params)
  | makeArray t n => exact gives_done (moves_makeArray t n)
  | loadLength => exact gives_done moves_loadLength
  | loadItem t => exact gives_done (moves_loadItem t)
  | loadItemAddress t => exact gives_done (moves_loadItemAddress t)
  | storeItem t => exact gives_done (moves_storeItem t)
  | loadItemOf a i => exact gives_done (moves_loadItemOf a i)
  | storeItemOf a i v => exact gives_done (moves_storeItemOf a i v)
  | toText t => exact gives_done (moves_toText t)
  | toFullText t => exact gives_done (moves_toFullText t)
  | joinTwo => exact gives_done (moves_call _)
  | joinThree => exact gives_done (moves_call _)
  | formatText format operands => exact gives_done (moves_formatText format operands)
  | openIfTrue => exact gives_done moves_openIfTrue
  | openIfFalse => exact gives_done moves_openIfFalse
  | openIf c => exact gives_done (moves_openIf c)
  | openIfCompared a c b => exact gives_done (moves_openIfCompared a c b)
  | openElse => exact gives_done moves_openElse
  | openElseIf a c b => exact gives_done (moves_openElseIf a c b)
  | closeIf => exact gives_done moves_closeIf
  | openIfNotZero o => exact gives_done (moves_openIfNotZero o)
  | openIfNotEmpty l => exact gives_done (moves_openIfNotEmpty l)
  | openElseIfEmpty l => exact gives_done (moves_openElseIfEmpty l)
  | openFor index start bound => exact gives_answer (moves_openFor index start bound) fun _ => rfl
  | closeFor => exact gives_done moves_closeFor
  | openEach l element enumerator getCurrent =>
    exact gives_answer (moves_openEach l element enumerator getCurrent) fun _ => rfl
  | closeEach moveNext => exact gives_done (moves_closeEach moveNext)
  | leave h => exact gives_done (moves_leave h)
  | leaveIfTrue h => exact gives_done (moves_leaveIfTrue h)
  | leaveIfFalse h => exact gives_done (moves_leaveIfFalse h)
  | openSwitch cases =>
    have hmap : (perform (.openSwitch cases)) = Emit.openSwitch cases >>= fun ls => pure (.labels ls) :=
      (bind_pure_comp _ _).symm
    rw [hmap]
    exact (gives_openSwitch cases).bind fun _ hls => gives_pure hls
  | openCase l name => exact gives_done (moves_openCase (ho l List.mem_cons_self) name)
  | closeCase => exact gives_done moves_closeCase
  | openDefault => exact gives_done moves_openDefault
  | closeSwitch => exact gives_done moves_closeSwitch
  | openWhile => exact gives_done moves_openWhile
  | openWhileBody c => exact gives_done (moves_openWhileBody c)
  | closeWhile => exact gives_done moves_closeWhile
  | _ => exact gives_done (moves_traced _ _)

end Operation

/-- Beginning a procedure grows its session. -/
theorem Emit.moves_begin : Emit.begin.Moves := by
  refine moves_get.bind fun s => gives_read fun t => ?_
  exact (moves_notify _).bind fun _ => moves_line _

end Stackwright
