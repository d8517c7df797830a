import Stackwright.Proofs.Builder.Going
import Stackwright.Proofs.Builder.Parts
import Stackwright.Proofs.Emission.Indexing
import Stackwright.Proofs.Machine.Legs

/-! # Loads and stores by index

A load of an item of an array, or a store into one, goes by the integer that its index operand holds: no item but the
one at that index is read or set, and where the array has none there, nothing is. The one operation that checks the
index may be reached behind conversions and dumps, so what it does is told apart from what may stop before it. The
untyped base of all arrays is the exception, for its method takes a 32-bit integer.

* **`Procedure.Finds`** — a run comes to the end with the item, or stops because there is none.
* **`Builder.items_indexed`** — loads and stores, wherever they stand in a procedure. -/

namespace Stackwright

/-- A load of an item of an array operand, or a store into it. -/
def Operation.indexItem (a i : Operand) : Option Operand → Operation
  | none => .loadItemOf a i
  | some v => .storeItemOf a i v

/-- A run through recorded code **comes to its end**, or it stops. -/
theorem Procedure.crosses_or_stops_among {p : Procedure} {sink : Sink} {k n : Nat} {os : List Op}
    {is : List (Instruction Nat)} (h : Op.Among sink k n os is) (hp : p.Has n is) (m : Machine) :
    (∃ m', p.Crosses n (n + is.length) m m') ∨ ∃ e m', p.Stops n (n + is.length) m e m' := by
  rcases (attains_among h hp m).orStops (.here n m) fun _ hi => hi with ⟨n', m', halong, rfl, -⟩ | hstop
  · exact .inl ⟨m', halong.within fun _ hi => hi⟩
  · exact .inr hstop

/-- A run through a stretch **finds an item**: it comes to the end if the array has the item, and if it has not, the
run stops for that. -/
def Procedure.Finds (p : Procedure) (first last : Nat) (m : Machine) (b : ArrayId) (j : Int) : Prop :=
  (m.world.heap.HasItem b j → ∃ m', p.Crosses first last m m') ∧
    (¬ m.world.heap.HasItem b j → ∃ r m',
      p.Stops first last m (.fault (.indexOutOfRange r (m.world.heap.itemCount b))) m')

namespace Emit

variable {level : TraceDetail} {s s₁ f : Session} {a i : Operand} {value : Option Operand} {p : Procedure}

/-- Where the operation that seeks an item stands in a procedure, and what comes before it. -/
theorem sought_of_indexItem (hrun : ((indexItem a i value).run (.ofLevel level)).run s = .ok () s₁) (hs : s.Fit)
    (hp : p.Fits f) (hf : s₁.Extends f) : ∃ q o os, s.code.size ≤ q ∧ q < s₁.code.size ∧
      p.code[q]? = some (.op o) ∧ a.SoughtBy i value os o ∧
      (∀ m, p.Leads s.code.size q (fun e m' => Op.Played s.locals.size os m (.error e m'))
        (fun m' => Op.Played s.locals.size os m (.ok () m')) s.code.size m) ∧
      ∀ m, (∃ m', p.Crosses s.code.size s₁.code.size m m') ∨ ∃ e m', p.Stops s.code.size s₁.code.size m e m' := by
  obtain ⟨os, is, ⟨before, o, behind, rfl, hsought⟩, hwent, hamong⟩ :=
    records_indexItem a i value level s s₁ () hs.labels hrun
  have hhas := hp.has hf hwent.spells
  obtain ⟨is₁, is₂, rfl, hbefore⟩ := hamong.split
  obtain ⟨hfront, hrest⟩ := Procedure.has_append.1 hhas
  have hsize := hwent.size
  rw [List.length_append, List.length_cons] at hsize
  refine ⟨s.code.size + is₁.length, o, before, Nat.le_add_right _ _, by omega, (Procedure.has_cons.1 hrest).1, hsought,
    Procedure.leads_among hbefore hfront, fun m => ?_⟩
  rw [hwent.size]
  exact Procedure.crosses_or_stops_among hamong hhas m

/-- What a run through a load or a store comes to. -/
theorem indexed_of_indexItem (hrun : ((indexItem a i value).run (.ofLevel level)).run s = .ok () s₁) (hs : s.Fit)
    (hp : p.Fits f) (hf : s₁.Extends f) {m : Machine} {b : ArrayId} {n : Int}
    (hsound : ∀ x ∈ a :: i :: value.toList, x.Sound m) (hk : ∀ x ∈ a :: i :: value.toList, x.Below s.locals.size)
    (ha : m.operand? a = some (.array b)) (hn : m.integer? i = some n) (hcount : m.world.heap.itemCount b ≤ 2 ^ 63) :
    (∀ m', p.Crosses s.code.size s₁.code.size m m' →
      m.world.heap.HasItem b (a.sought n) ∧ a.Indexed m b (a.sought n) value m') ∧
    ∀ e m', p.Stops s.code.size s₁.code.size m e m' → m'.world.heap.arrays = m.world.heap.arrays := by
  cases value with
  | none =>
    obtain ⟨os, is, hloaded, hwent, hamong⟩ := records_loadItemOf a i level s s₁ () hs.labels hrun
    have hleads := Procedure.leads_among hamong (hp.has hf hwent.spells) m
    rw [hwent.size]
    refine ⟨fun m' hcross => ?_, fun e m' hstop => ?_⟩
    · obtain ⟨hka, hki⟩ : a.Below s.locals.size ∧ i.Below s.locals.size := by simpa using hk
      exact hloaded.done hka hki ha hn hcount (hleads.crosses hcross)
    · obtain ⟨c, hchain⟩ := hloaded.chain s.locals.size
      exact (hchain.error (hleads.stops hstop)).heap.arrays
  | some v =>
    obtain ⟨last, hrecords⟩ := records_storeItemOf a i v
    obtain ⟨os, is, hstored, hwent, hamong⟩ := hrecords level s s₁ hs.labels hrun
    obtain ⟨hfront, hlast⟩ := Procedure.has_append.1 (hp.has hf hwent.spells)
    have hleads := (Procedure.leads_among hamong hfront m).behind (Procedure.has_cons.1 hlast).1 (Nat.le_add_right _ _)
    have hsize : s₁.code.size = s.code.size + is.length + 1 := by
      rw [hwent.size, List.length_append, List.length_singleton, Nat.add_assoc]
    rw [hsize]
    refine ⟨fun m' hcross => ?_, fun e m' hstop => hstored.arrays_of_error hsound hk (hleads.stops hstop)⟩
    obtain ⟨m₁, hplayed, hdone⟩ := hleads.crosses hcross
    obtain ⟨haside, hputs⟩ := hstored.puts hsound hk ha hn hcount hplayed
    have hcount₁ : m₁.world.heap.itemCount b ≤ 2 ^ 63 := by rwa [haside.heap.itemCount]
    obtain ⟨hj, w, hw, hheap⟩ := hputs.done hcount₁ hdone
    refine ⟨?_, m₁.world.heap, w, haside.heap, hw, hheap⟩
    rwa [Heap.HasItem, haside.heap.itemCount] at hj

/-! ### Loads where nothing is dumped -/

variable {x y : Session} {k : Nat}

/-- The array and the index are **loaded** where nothing is dumped. -/
theorem goes_pair (hlevel : level ≠ .full) (hk : k ≤ s.locals.size) (hlabels : 0 < s.labels.entries.size) (hki : i.Below k)
    (ha : ((load a).run (.ofLevel level)).run s = .ok () x)
    (hi : ((load i).run (.ofLevel level)).run x = .ok () y) :
    s.Goes (fun m => (∃ z, m.operand? a = some z) ∧ ∃ z, m.operand? i = some z)
      (fun m m' => m.Aside k m' ∧ ∃ z w, m.operand? a = some z ∧ m.operand? i = some w ∧
        m'.frame.stack = w :: z :: m.frame.stack) y := by
  have hfirst := goes_load hk hlabels ha
  have hsecond := goes_load (Nat.le_trans hk hfirst.locals) (Nat.lt_of_lt_of_le hlabels hfirst.labels) hi
  refine (hfirst.trans hsecond).imp ?_ ?_
  · rintro m ⟨⟨z, hz⟩, w, hw⟩
    exact ⟨⟨z, hz, fun h => absurd h hlevel⟩, fun m' hm' =>
      ⟨w, (hm'.1.operand hki).trans hw, fun h => absurd h hlevel⟩⟩
  · rintro m m'' ⟨m', ⟨haside, z, hz, hstack⟩, haside', w, hw, hstack'⟩
    exact ⟨haside.trans haside', z, w, hz, (haside.operand hki).symm.trans hw, by rw [hstack', hstack]⟩

/-- So a run gets to the operation that seeks the item. -/
theorem reaches_traced {text : String} {o : Op} {z : Session} (hlevel : level ≠ .full) (hs : s.Fit)
    (hki : i.Below s.locals.size) (ha : ((load a).run (.ofLevel level)).run s = .ok () x)
    (hi : ((load i).run (.ofLevel level)).run x = .ok () y)
    (ho : ((traced text o).run (.ofLevel level)).run y = .ok () z) (hp : p.Fits f) (hf : z.Extends f) :
    ∃ n, s.code.size ≤ n ∧ z.code.size = n + 1 ∧ p.code[n]? = some (.op o) ∧
      ∀ {m : Machine} {v w : Value}, m.operand? a = some v → m.operand? i = some w →
        z.locals.size ≤ m.frame.locals.size →
        ∃ m₁, p.Crosses s.code.size n m m₁ ∧ m.Aside s.locals.size m₁ ∧ m₁.frame.stack = w :: v :: m.frame.stack := by
  obtain ⟨u, y', hnote, hop⟩ := run_bind_eq_ok.1 ho
  rw [run_op] at hop
  cases hop
  have htells := tells_note hnote
  have hgoes := (goes_pair hlevel (Nat.le_refl _) hs.labels hki ha hi).trans htells.goes
  have hwent := y'.wentOn_recorded [o]
  have hcode := (Procedure.has_cons.1 (hp.has hf hwent.spells)).1
  refine ⟨y'.code.size, hgoes.further.size, hwent.size, hcode, fun {m v w} hv hw hlocals => ?_⟩
  obtain ⟨n', m₁, halong, rfl, m₂, ⟨haside, v', w', hv', hw', hstack⟩, halike⟩ :=
    (hgoes.attains hp (hwent.grows.extends.trans hf) m).along
      ⟨⟨⟨⟨v, hv⟩, w, hw⟩, fun _ _ => trivial⟩, Nat.le_trans hwent.grows.locals_size hlocals⟩
  cases hv.symm.trans hv'
  cases hw.symm.trans hw'
  exact ⟨m₁, halong.within fun _ hi => hi, haside.trans (.of_alike _ halike), halike.stack.trans hstack⟩

/-- Code that is gone through is crossed. -/
theorem exists_crosses_of_goes {S : Machine → Prop} {Q : Machine → Machine → Prop} (h : x.Goes S Q y) (hp : p.Fits f)
    (hf : y.Extends f) {m : Machine} (hS : S m) (hlocals : y.locals.size ≤ m.frame.locals.size) :
    ∃ m', p.Crosses x.code.size y.code.size m m' := by
  obtain ⟨n', m', halong, rfl, -⟩ := (h.attains hp hf m).along ⟨hS, hlocals⟩
  exact ⟨m', halong.within fun _ hi => hi⟩

variable {m : Machine} {b : ArrayId} {n : Int} {l : WordKind} {word : BitVec l.bits}

/-- The operation behind the loads **finds its item**, if what comes behind it is crossed once it is done. -/
theorem finds_of_traced {z : Session} {text : String} {o : Op} (hlevel : level ≠ .full) (hs : s.Fit) (hp : p.Fits f)
    (hf : s₁.Extends f) (hki : i.Below s.locals.size) (ha : m.operand? a = some (.array b))
    (hi : m.operand? i = some (.scalar (.word l word))) (hn : n = Scalar.wordValue l word)
    (hcount : m.world.heap.itemCount b ≤ 2 ^ 63) (ho : o = .loadItem ∨ o = .addressItem)
    (hsx : ((load a).run (.ofLevel level)).run s = .ok () x) (hxy : ((load i).run (.ofLevel level)).run x = .ok () y)
    (hyz : ((traced text o).run (.ofLevel level)).run y = .ok () z) (hzs : z.Extends s₁)
    (hlocals : z.locals.size ≤ m.frame.locals.size)
    (hbehind : ∀ m₁ m₂, m.Aside s.locals.size m₁ →
      m₁.frame.stack = .scalar (.word l word) :: .array b :: m.frame.stack → m₁.world.heap.HasItem b n →
      o.execute.run m₁ = .ok () m₂ → ∃ m', p.Crosses z.code.size s₁.code.size m₂ m') :
    p.Finds s.code.size s₁.code.size m b n := by
  obtain ⟨q, hfirst, hq, hcode, hreach⟩ := reaches_traced hlevel hs hki hsx hxy hyz hp (hzs.trans hf)
  obtain ⟨m₁, hcross, haside, hstack⟩ := hreach ha hi hlocals
  have hy : (Value.scalar (.word l word)).Indexes n := hn ▸ Value.indexes_word l word
  have hseeks : o.Seeks b n m₁.frame.stack := by
    rw [hstack]
    rcases ho with rfl | rfl
    · exact .load hy
    · exact .address hy
  have hsame := haside.heap.itemCount b
  have hchecks := hseeks.checks (hsame ▸ hcount)
  have hle := hzs.size
  cases hrun : o.execute.run m₁ with
  | ok u m₂ =>
    have hj := hchecks.there _ hrun
    obtain ⟨m', hlast⟩ := hbehind m₁ m₂ haside hstack hj hrun
    rw [hq] at hlast hle
    have hstep : ((Instruction.op o).execute p.signature.ret).run m₁ = .ok .next m₂ := by
      rw [Instruction.execute, Exec.run_bind_ok hrun]
      rfl
    refine ⟨fun _ => ⟨m', (hcross.longer (Nat.le_refl _) (by omega)).trans ?_⟩, fun hnot => absurd ?_ hnot⟩
    · exact .next hfirst (by omega) hcode hstep (hlast.longer (by omega) (Nat.le_refl _))
    · rwa [Heap.HasItem, hsame] at hj
  | error e m₂ =>
    rcases hchecks.refused _ _ hrun with ⟨hnot, r, rfl⟩ | ⟨hbase, -⟩
    · rw [Heap.HasItem, hsame] at hnot
      refine ⟨fun hj => absurd hj hnot, fun _ => ⟨r, m₂, q, m₁, _, hcross.longer (Nat.le_refl _) (by omega), hfirst,
        by omega, hcode, ?_⟩⟩
      rw [Instruction.execute, Exec.run_bind_error hrun, hsame]
    · rcases ho with rfl | rfl <;> cases hbase

/-- **Loads where nothing is dumped** find their items. -/
theorem finds_of_loadItemOf (hrun : ((loadItemOf a i).run (.ofLevel level)).run s = .ok () s₁)
    (hlevel : level ≠ .full) (hs : s.Fit) (hp : p.Fits f) (hf : s₁.Extends f) (hki : i.Below s.locals.size)
    (ha : m.operand? a = some (.array b)) (hn : m.integer? i = some n) (hcount : m.world.heap.itemCount b ≤ 2 ^ 63)
    (hlocals : s₁.locals.size ≤ m.frame.locals.size) : p.Finds s.code.size s₁.code.size m b (a.sought n) := by
  obtain ⟨K, l, word, -, hi, hword⟩ := Machine.word_of_integer hn
  unfold loadItemOf itemTypeOf at hrun
  cases ht : a.type.itemType with
  | error e =>
    rw [ht] at hrun
    cases hrun
  | ok t =>
    rw [ht] at hrun
    dsimp only at hrun
    rw [pure_bind] at hrun
    rw [Operand.sought_of_itemType ht]
    obtain ⟨u, x, hsx, hrun⟩ := run_bind_eq_ok.1 hrun
    obtain ⟨u, y, hxy, hrun⟩ := run_bind_eq_ok.1 hrun
    have hpair := goes_pair hlevel (Nat.le_refl _) hs.labels hki hsx hxy
    split at hrun
    · obtain ⟨u, w, haddress, hread⟩ := run_bind_eq_ok.1 hrun
      obtain ⟨u, z, htraced, hprobe⟩ := run_bind_eq_ok.1 haddress
      have hop := goes_traced htraced
      have hlabels := Nat.lt_of_lt_of_le hs.labels (Nat.le_trans hpair.labels hop.labels)
      have hshow := goes_probe (Nat.zero_le _) hlabels hprobe
      have hrest := hshow.trans (goes_traced hread)
      refine finds_of_traced hlevel hs hp hf hki ha hi hword hcount (.inr rfl) hsx hxy htraced hrest.further
        (Nat.le_trans hrest.locals hlocals) fun m₁ m₂ haside hstack hj hdone => ?_
      have hsize := ((Exec.acts_addressItem 0).ok hdone).size.trans haside.size
      refine exists_crosses_of_goes hrest hp hf ⟨fun h => absurd h hlevel, fun m₃ hm₃ m₄ hm₄ => ?_⟩
        (hsize.symm ▸ hlocals)
      -- the address is still that of the item
      have hcount₁ : m₁.world.heap.itemCount b ≤ 2 ^ 63 := by rwa [haside.heap.itemCount]
      obtain ⟨r, hr, hnr⟩ : (Value.scalar (.word l word)).Indexes n := hword ▸ Value.indexes_word l word
      obtain rfl := (Heap.hasItem_iff hnr hcount₁).2 hj
      obtain ⟨v, hv⟩ := Heap.getItem_of_hasItem hj
      rw [Exec.run_addressItem_of hstack hr, hv] at hdone
      cases hdone
      have hadds := hm₃.aside.heap.trans (Machine.Aside.of_alike 0 hm₄).heap
      have hholds : m₄.Holds (.element b r.toNat) v :=
        Machine.holds_item (hj.adds hadds) (by rwa [hadds.itemCount]) ((hadds.getItem b r).trans hv)
      exact ⟨_, Exec.run_loadThrough (hm₄.stack.trans hm₃.stack) hholds⟩
    · obtain ⟨text, y', htext, hrun⟩ := run_bind_eq_ok.1 hrun
      obtain ⟨u, z, htraced, hprobe⟩ := run_bind_eq_ok.1 hrun
      obtain rfl : y' = y := by
        cases hm : Mnemonic.loadItem t <;> rw [hm] at htext <;> cases htext
        rfl
      have hop := goes_traced htraced
      have hlabels := Nat.lt_of_lt_of_le hs.labels (Nat.le_trans hpair.labels hop.labels)
      have hshow := goes_probe (Nat.zero_le _) hlabels hprobe
      refine finds_of_traced hlevel hs hp hf hki ha hi hword hcount (.inl rfl) hsx hxy htraced hshow.further
        (Nat.le_trans hshow.locals hlocals) fun m₁ m₂ haside hstack hj hdone => ?_
      have hsize := ((Exec.acts_loadItem 0).ok hdone).size.trans haside.size
      exact exists_crosses_of_goes hshow hp hf (fun h => absurd h hlevel) (hsize.symm ▸ hlocals)

end Emit

namespace Builder

/-- **Loads and stores by index.** Wherever an accepted load of an item or a store into one stands in a procedure, at
every level, and its code is reached with an array, an integer and slots that hold values of their types: a run comes
to the end of the code, or it stops. At the end, the array has the item at the index, and that is loaded, or it alone
is set; when a run stops, all arrays are as they were. One operation in the code checks the index: it goes on only if
the item is there, and otherwise stops because it is not, unless the untyped base refuses the value. The index is the
integer itself, of whatever kind; only the untyped base takes its low 32 bits. Where nothing is dumped, a load stops
for no other reason. -/
theorem items_indexed (number : Nat) (name : String) (signature : Signature) (sink : Sink) (level : TraceDetail)
    (cs cs' : List Call) (a i : Operand) (value : Option Operand) (b : Builder) (before : Session) (p : Procedure)
    (hb : (begin number name signature sink level).builder.after cs = b) (hbefore : b.state = .building before)
    (hbelow : ∀ x ∈ a :: i :: value.toList, x.Below before.locals.size)
    (hissued : ∀ call ∈ cs ++ ([.perform (.indexItem a i value)] ++ cs'), ∀ l ∈ call.handed, l.Issued)
    (hp : (b.after ([.perform (.indexItem a i value)] ++ cs')).finish.result = .ok p) :
    let first := b.position
    let last := (b.after [.perform (.indexItem a i value)]).position
    ∃ q o, first ≤ q ∧ q < last ∧ p.code[q]? = some (.op o) ∧ (o = .call Builtin.storeItem → a.type == .arrayBase) ∧
      ∀ (m : Machine) (array : ArrayId) (n : Int), (∀ x ∈ a :: i :: value.toList, x.Sound m) →
        m.operand? a = some (.array array) → m.integer? i = some n → m.world.heap.itemCount array ≤ 2 ^ 63 →
        let j := a.sought n
        ((∃ m', p.Crosses first last m m') ∨ ∃ e m', p.Stops first last m e m') ∧
        (∀ m', p.Crosses first last m m' → m.world.heap.HasItem array j ∧ a.Indexed m array j value m') ∧
        (∀ e m', p.Stops first last m e m' → m'.world.heap.arrays = m.world.heap.arrays) ∧
        (∀ m₁, p.Crosses first q m m₁ → o.Checks m₁ array j) ∧
        (level ≠ .full → value = none → p.locals.length ≤ m.frame.locals.size → p.Finds first last m array j) := by
  intro first last
  obtain ⟨sink', s, s', f, hbs, hsound, htakes, hsf, hfits, hinside⟩ := takes_within hb hissued hp
  obtain rfl : s = before := by
    rw [hbs] at hbefore
    exact BuilderState.building.inj hbefore
  have hfit : s.Fit := fit_of_after (hb ▸ hbefore)
  subst hbs
  obtain ⟨s₁, hrun, hs₁⟩ : ∃ s₁, ((Emit.indexItem a i value).run (.ofLevel level)).run s = .ok () s₁ ∧
      s' = { s₁ with notices := #[] } := by
    cases value with
    | none => exact htakes.done rfl
    | some v => exact htakes.done rfl
  have hlast : last = s₁.code.size := by
    show (Builder.after _ _).position = _
    rw [htakes.taking sink', hs₁]
    rfl
  have hf : s₁.Extends f := s₁.tells_delivered.further.trans (hs₁ ▸ hsf.extends)
  rw [hlast]
  obtain ⟨q, o, os, hfirst, hq, hcode, hsought, hleads, hends⟩ := Emit.sought_of_indexItem hrun hfit hfits hf
  refine ⟨q, o, hfirst, hq, hcode, hsought.base, fun m array n hsound ha hn hcount => ?_⟩
  obtain ⟨hindexed, hstops⟩ := Emit.indexed_of_indexItem hrun hfit hfits hf hsound hbelow ha hn hcount
  refine ⟨hends m, hindexed, hstops, fun m₁ hcross => ?_, fun hlevel hload hlocals => ?_⟩
  · exact hsought.checks hsound hbelow ha hn hcount ((hleads m).crosses hcross)
  · subst hload
    have hki : i.Below s.locals.size := hbelow i (List.mem_cons_of_mem _ List.mem_cons_self)
    refine Emit.finds_of_loadItemOf hrun hlevel hfit hfits hf hki ha hn hcount (Nat.le_trans ?_ hlocals)
    have hsize : s'.locals.size = s₁.locals.size := by rw [hs₁]
    rw [hfits.locals, ← hsize]
    exact hsf.locals_size

/-- A parameter of the untyped base. -/
def anyArray : Operand := .argument ⟨0, .arrayBase⟩

/-- An index of 64 bits. -/
def wideIndex : Operand := .argument ⟨1, .primitive .i64⟩

/-- The store of a text into any array at a wide index. -/
def storeText : Call := .perform (.indexItem anyArray wideIndex (some (.constant (.text "x"))))

/-- A procedure that makes it. -/
def textStored : Procedure where
  name := "f"
  signature := ⟨[.arrayBase, .primitive .i64], none⟩
  locals := []
  code := #[.op (.loadArg 0), .op (.push (.text "x")), .op (.loadArg 1), .op (.convert .i32),
    .op (.call Builtin.storeItem), .ret]

theorem finish_textStored :
    ((begin 1 "f" ⟨[.arrayBase, .primitive .i64], none⟩ .log .off).builder.after ([storeText] ++ [])).finish.result =
      .ok textStored := by
  with_unfolding_all rfl

/-- It is called on an array of one text, with an index whose low 32 bits are zero. -/
def farIndex : Machine :=
  ⟨⟨#[.array ⟨0⟩, .scalar (.wrap .i64 (2 ^ 32))], #[], []⟩, { heap := { arrays := #[⟨.string, #[.text "s"]⟩] } }⟩

/-- And it sets the first item. -/
def firstSet : Machine :=
  ⟨⟨#[.array ⟨0⟩, .scalar (.wrap .i64 (2 ^ 32))], #[], []⟩, { heap := { arrays := #[⟨.string, #[.text "x"]⟩] } }⟩

/-- Through the untyped base an index that is far out of range is **wrapped into range**, and an item is set. -/
theorem items_indexed_wrapped :
    ((begin 1 "f" ⟨[.arrayBase, .primitive .i64], none⟩ .log .off).builder.after ([storeText] ++ [])).finish.result =
        .ok textStored ∧
      farIndex.integer? wideIndex = some (2 ^ 32) ∧ ¬ farIndex.world.heap.HasItem ⟨0⟩ (2 ^ 32) ∧
      textStored.Crosses 0 5 farIndex firstSet ∧ anyArray.sought (2 ^ 32) = 0 ∧
      farIndex.world.heap.HasItem ⟨0⟩ 0 ∧
      anyArray.Indexed farIndex ⟨0⟩ 0 (some (.constant (.text "x"))) firstSet := by
  have hissued : ∀ call ∈ [] ++ ([storeText] ++ []), ∀ l ∈ call.handed, l.Issued := by
    intro call hcall l hl
    obtain rfl := List.mem_singleton.1 hcall
    exact absurd hl List.not_mem_nil
  have hbelow : ∀ x ∈ anyArray :: wideIndex :: (some (Operand.constant (.text "x"))).toList, x.Below 0 := by
    intro x hx l hl
    simp only [Option.toList_some, List.mem_cons, List.not_mem_nil, or_false] at hx
    rcases hx with rfl | rfl | rfl <;> exact absurd hl List.not_mem_nil
  have hcross : textStored.Crosses 0 5 farIndex firstSet :=
    .next (by decide) (by decide) rfl rfl <| .next (by decide) (by decide) rfl rfl <|
      .next (by decide) (by decide) rfl rfl <| .next (by decide) (by decide) rfl rfl <|
        .next (by decide) (by decide) rfl rfl (.here _ _)
  have hsound : ∀ x ∈ anyArray :: wideIndex :: (some (Operand.constant (.text "x"))).toList, x.Sound farIndex := by
    intro x hx
    simp only [Option.toList_some, List.mem_cons, List.not_mem_nil, or_false] at hx
    rcases hx with rfl | rfl | rfl
    · exact ⟨.array ⟨0⟩, rfl, fun _ => False, fun _ hb => hb.elim, rfl, rfl⟩
    · exact ⟨_, rfl, fun _ => False, fun _ hb => hb.elim, rfl⟩
    · exact trivial
  have hindex : farIndex.integer? wideIndex = some (2 ^ 32) := by decide
  have hsought : anyArray.sought (2 ^ 32) = 0 := by decide
  obtain ⟨q, o, -, -, -, -, hrun⟩ := items_indexed 1 "f" ⟨[.arrayBase, .primitive .i64], none⟩ .log .off [] []
    anyArray wideIndex (some (.constant (.text "x"))) _ _ textStored rfl rfl hbelow hissued finish_textStored
  obtain ⟨-, hcrosses, -⟩ := hrun farIndex ⟨0⟩ (2 ^ 32) hsound rfl hindex (by decide)
  obtain ⟨hitem, hindexed⟩ := hcrosses firstSet hcross
  rw [hsought] at hitem hindexed
  exact ⟨finish_textStored, hindex, by decide, hcross, hsought, hitem, hindexed⟩

end Builder

end Stackwright
