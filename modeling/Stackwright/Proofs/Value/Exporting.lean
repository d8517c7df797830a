import Stackwright.Proofs.Json.Writing
import Stackwright.Proofs.Value.Nesting

/-! # Exports

The export of a value is what its tree is written as. The tree forgets which references were followed: boxes become
their content, arrays lists, and objects and structs become records of their declared names, each with the value of
its slot, as far as both go. Only an address has no tree; a value with an address in any exported position has none
either, and its export fails.

* **`Heap.Exports h v w`** — the value `w` is exported as a part of `v`.
* **`Heap.Tree h v j`** — the tree of a value, as a JSON value.
* **`Heap.Tree.unique`** — a value has one tree.
* **`Heap.outcome_of_depth`** — an export gives the tree, or fails on an address.
* **`Heap.export_faithful`** — on acyclic values without floats, an export fails exactly on addresses, and its
  text is JSON for the tree and nothing else. -/

namespace Stackwright

open Relation

/-- The values of declared fields, by **name**: as far as there are fields and values. -/
def Ty.named (t : Ty) (values : List Value) : List (String × Value) := (t.fields.map Prod.fst).zip values

namespace Heap

variable {h h' : Heap} {v v' w : Value} {j k : Json} {m n : Nat}

/-- The values of the declared fields of an object. -/
def slots (h : Heap) (o : ObjectId) : List (String × Value) :=
  (h.objectCell o).type.named (h.objectCell o).fields.toList

/-! ## Exported positions -/

/-- A value **exports** what is exported as a part of it. -/
inductive Exports (h : Heap) : Value → Value → Prop
  /-- An item of an array. -/
  | item {a : ArrayId} {v : Value} (hv : v ∈ (h.arrayCell a).items.toList) : Exports h (.array a) v
  /-- A slot of an object that a field is declared for. -/
  | slot {o : ObjectId} {name : String} {v : Value} (hv : (name, v) ∈ h.slots o) : Exports h (.object o) v
  /-- A slot of a struct that a field is declared for. -/
  | field {t : Ty} {fields : List Value} {name : String} {v : Value} (hv : (name, v) ∈ t.named fields) :
      Exports h (.struct t fields) v
  /-- The content of a box. -/
  | content (b : BoxId) : Exports h (.boxed b) (h.getBox b)

/-- A value is **exportable** if no exported part of it is a part of itself or a float. -/
structure Exportable (h : Heap) (v : Value) : Prop where
  /-- Nothing in it is inside itself. -/
  acyclic : v.Acyclic h.Exports
  /-- No float is in it. -/
  no_float : ∀ w, ReflTransGen h.Exports v w → ∀ k x, w ≠ .scalar (.float k x)

/-- What an exportable value exports is exportable. -/
theorem Exportable.step (hv : h.Exportable v) (hw : h.Exports v w) : h.Exportable w where
  acyclic := hv.acyclic.step hw
  no_float u hu := hv.no_float u (.head hw hu)

/-- A value is exportable if all that it exports is, and does not lead back to it. -/
theorem exportable_of_forall (hfloat : ∀ k x, v ≠ .scalar (.float k x))
    (hv : ∀ w, h.Exports v w → h.Exportable w ∧ ¬ ReflTransGen h.Exports w v) : h.Exportable v where
  acyclic := Value.acyclic_of_forall fun w hw => ⟨(hv w hw).1.acyclic, (hv w hw).2⟩
  no_float := by
    intro u hu
    rcases hu.cases_head with rfl | ⟨w, hw, hu⟩
    · exact hfloat
    · exact (hv w hw).1.no_float u hu

/-- The references that the heap has a cell for. -/
def cells (h : Heap) : Finset CellId :=
  (Finset.range h.arrays.size).image .array ∪ (Finset.range h.objects.size).image .object ∪
    (Finset.range h.boxes.size).image .boxed

theorem card_cells_le (h : Heap) : h.cells.card ≤ h.arrays.size + h.objects.size + h.boxes.size := by
  have hrange : ∀ (make : Nat → CellId) (n : Nat), ((Finset.range n).image make).card ≤ n := by
    intro make n
    exact Finset.card_image_le.trans_eq (Finset.card_range n)
  have hboth := Finset.card_union_le ((Finset.range h.arrays.size).image CellId.array)
    ((Finset.range h.objects.size).image CellId.object)
  have hall := Finset.card_union_le ((Finset.range h.arrays.size).image CellId.array ∪
    (Finset.range h.objects.size).image CellId.object) ((Finset.range h.boxes.size).image CellId.boxed)
  have harrays := hrange .array h.arrays.size
  have hobjects := hrange .object h.objects.size
  have hboxes := hrange .boxed h.boxes.size
  rw [cells]
  omega

/-- An array that has an item was made. -/
theorem lt_of_item {a : ArrayId} (hv : v ∈ (h.arrayCell a).items.toList) : a.index < h.arrays.size := by
  by_contra hnot
  rw [arrayCell, Array.getD_eq_getD_getElem?, Array.getElem?_eq_none (Nat.le_of_not_lt hnot)] at hv
  cases hv

/-- An object that has a slot was made. -/
theorem lt_of_slot {o : ObjectId} {p : String × Value} (hp : p ∈ h.slots o) : o.index < h.objects.size := by
  by_contra hnot
  have hvalue := (List.of_mem_zip (a := p.1) (b := p.2) hp).2
  rw [objectCell, Array.getD_eq_getD_getElem?, Array.getElem?_eq_none (Nat.le_of_not_lt hnot)] at hvalue
  cases hvalue

/-- A box that was not made is empty. -/
theorem lt_of_content {b : BoxId} (hb : h.getBox b ≠ .null) : b.index < h.boxes.size := by
  by_contra hnot
  refine hb ?_
  rw [getBox, boxCell, Array.getD_eq_getD_getElem?, Array.getElem?_eq_none (Nat.le_of_not_lt hnot)]
  rfl

/-- An exportable value is no deeper than there are cells, and one more. -/
theorem depth_of_exportable (hv : h.Exportable v) :
    v.Depth h.Exports (h.arrays.size + h.objects.size + h.boxes.size + 1) := by
  refine (hv.acyclic.depth h.cells ?_ ?_).mono (Nat.succ_le_succ h.card_cells_le)
  · rintro v w hcell ⟨⟩
    · cases hcell
    · cases hcell
    · rename_i t fields name hw
      have := List.sizeOf_lt_of_mem (List.of_mem_zip hw).2
      simp only [Value.struct.sizeOf_spec]
      omega
    · cases hcell
  · -- what was not made leads to nothing, or to null
    rintro v w c hcell ⟨⟩
    · rename_i a hw
      cases hcell
      exact .inl (by simp [cells, lt_of_item hw])
    · rename_i o name hw
      cases hcell
      exact .inl (by simp [cells, lt_of_slot hw])
    · cases hcell
    · rename_i b
      cases hcell
      by_cases hempty : h.getBox b = .null
      · exact .inr hempty
      · exact .inl (by simp [cells, lt_of_content hempty])

/-! ## Trees -/

/-- The **tree** of a value. A float and an address have none. -/
inductive Tree (h : Heap) : Value → Json → Prop
  | null : Tree h .null .null
  | bool (b : Bool) : Tree h (.ofBool b) (.bool b)
  /-- An integer of any kind is a number. -/
  | integer {k : WordKind} (hk : k ≠ .char) (x : BitVec k.bits) :
      Tree h (.scalar (.word k x)) (.number (Scalar.wordValue k x) 0)
  /-- A unit that is a character is a string of it. -/
  | char {x : BitVec 16} {c : Char} (hc : c.toNat = x.toNat) :
      Tree h (.scalar (.word .char x)) (.string (String.singleton c))
  /-- A unit that is half of a character is a number. -/
  | surrogate {x : BitVec 16} (hlow : 0xD800 ≤ x.toNat) (hhigh : x.toNat < 0xE000) :
      Tree h (.scalar (.word .char x)) (.number x.toNat 0)
  | text (s : String) : Tree h (.text s) (.string s)
  /-- A type is its path. -/
  | handle (t : Ty) : Tree h (.handle t) (.string t.path)
  /-- An array is the list of its items. -/
  | array {a : ArrayId} {js : List Json} (hlength : js.length = (h.arrayCell a).items.toList.length)
      (hitems : ∀ (i : Nat) (v : Value) (j : Json),
        (h.arrayCell a).items.toList[i]? = some v → js[i]? = some j → Tree h v j) : Tree h (.array a) (.array js)
  /-- An object is the record of its named slots. -/
  | object {o : ObjectId} {js : List (String × Json)} (hnames : js.map Prod.fst = (h.slots o).map Prod.fst)
      (hvalues : ∀ (i : Nat) (v : String × Value) (j : String × Json),
        (h.slots o)[i]? = some v → js[i]? = some j → Tree h v.2 j.2) : Tree h (.object o) (.object js)
  /-- A struct as well. -/
  | struct {t : Ty} {fields : List Value} {js : List (String × Json)}
      (hnames : js.map Prod.fst = (t.named fields).map Prod.fst)
      (hvalues : ∀ (i : Nat) (v : String × Value) (j : String × Json),
        (t.named fields)[i]? = some v → js[i]? = some j → Tree h v.2 j.2) : Tree h (.struct t fields) (.object js)
  /-- A box is its content. -/
  | box {b : BoxId} {j : Json} (hcontent : Tree h (h.getBox b) j) : Tree h (.boxed b) j

/-- Two lists as long as a third one are the same if they are so at every position of it. -/
theorem eq_of_forall_position {α β : Type} {vs : List α} {js ks : List β} (hjs : js.length = vs.length)
    (hks : ks.length = vs.length)
    (hpositions : ∀ (i : Nat) (v : α) (j k : β), vs[i]? = some v → js[i]? = some j → ks[i]? = some k → j = k) :
    js = ks := by
  refine List.ext_getElem (hjs.trans hks.symm) fun i hi hi' => ?_
  exact hpositions i vs[i] js[i] ks[i] (List.getElem?_eq_getElem _) (List.getElem?_eq_getElem hi)
    (List.getElem?_eq_getElem hi')

/-- Two records of the same names are the same if their values are. -/
theorem eq_of_names {slots : List (String × Value)} {js ks : List (String × Json)}
    (hjs : js.map Prod.fst = slots.map Prod.fst) (hks : ks.map Prod.fst = slots.map Prod.fst)
    (hvalues : ∀ (i : Nat) (v : String × Value) (j k : String × Json),
      slots[i]? = some v → js[i]? = some j → ks[i]? = some k → j.2 = k.2) : js = ks := by
  have hlength : ∀ {ls : List (String × Json)}, ls.map Prod.fst = slots.map Prod.fst → ls.length = slots.length := by
    intro ls hls
    simpa using congrArg List.length hls
  have hname : ∀ {ls : List (String × Json)} {i : Nat} {v : String × Value} {l : String × Json},
      ls.map Prod.fst = slots.map Prod.fst → slots[i]? = some v → ls[i]? = some l → l.1 = v.1 := by
    intro ls i v l hls hv hl
    have hsame := congrArg (·[i]?) hls
    simpa [hv, hl] using hsame
  refine eq_of_forall_position (hlength hjs) (hlength hks) fun i v j k hv hj hk => ?_
  exact Prod.ext ((hname hjs hv hj).trans (hname hks hv hk).symm) (hvalues i v j k hv hj hk)

/-- No character is half of one. -/
theorem not_surrogate {c : Char} (hlow : 0xD800 ≤ c.toNat) (hhigh : c.toNat < 0xE000) : False := by
  have hvalid := c.valid
  simp only [UInt32.isValidChar, Nat.isValidChar] at hvalid
  have hnat : c.toNat = c.val.toNat := rfl
  omega

namespace Tree

/-- A value has **one tree**. -/
theorem unique (hj : h.Tree v j) (hk : h.Tree v k) : j = k := by
  induction hj generalizing k with
  | null =>
    cases hk
    rfl
  | bool b =>
    cases hk
    rfl
  | integer hother x =>
    cases hk with
    | integer => rfl
    | char => exact absurd rfl hother
    | surrogate => exact absurd rfl hother
  | @char x c hc =>
    cases hk with
    | integer hother => exact absurd rfl hother
    | char hc' => rw [Char.toNat_inj.1 (hc.trans hc'.symm)]
    | surrogate hlow hhigh => exact (not_surrogate (c := c) (by omega) (by omega)).elim
  | surrogate hlow hhigh =>
    cases hk with
    | integer hother => exact absurd rfl hother
    | @char _ c hc => exact (not_surrogate (c := c) (by omega) (by omega)).elim
    | surrogate => rfl
  | text s =>
    cases hk
    rfl
  | handle t =>
    cases hk
    rfl
  | array hlength _ ih =>
    cases hk with
    | array hlength' hitems' =>
      rw [eq_of_forall_position hlength hlength' fun i v j k hv hj hk => ih i v j hv hj (hitems' i v k hv hk)]
  | object hnames _ ih =>
    cases hk with
    | object hnames' hvalues' =>
      rw [eq_of_names hnames hnames' fun i v j k hv hj hk => ih i v j hv hj (hvalues' i v k hv hk)]
  | struct hnames _ ih =>
    cases hk with
    | struct hnames' hvalues' =>
      rw [eq_of_names hnames hnames' fun i v j k hv hj hk => ih i v j hv hj (hvalues' i v k hv hk)]
  | box _ ih =>
    cases hk with
    | box hcontent => exact ih hcontent

/-- What a value with a tree exports **has a tree**. -/
theorem step (hj : h.Tree v j) (hw : h.Exports v w) : ∃ k, h.Tree w k := by
  -- a part has its position, and at this position of the tree is the tree of the part
  have hentry : ∀ {slots : List (String × Value)} {js : List (String × Json)} {name : String} {w : Value},
      js.map Prod.fst = slots.map Prod.fst →
      (∀ (i : Nat) (v : String × Value) (j : String × Json), slots[i]? = some v → js[i]? = some j → h.Tree v.2 j.2) →
      (name, w) ∈ slots → ∃ k, h.Tree w k := by
    intro slots js name w hnames hvalues hw
    obtain ⟨i, hi⟩ := List.mem_iff_getElem?.1 hw
    have hlength : js.length = slots.length := by simpa using congrArg List.length hnames
    have hbound : i < js.length := hlength ▸ (List.getElem?_eq_some_iff.1 hi).1
    exact ⟨_, hvalues i _ _ hi (List.getElem?_eq_getElem hbound)⟩
  cases hw with
  | item hw =>
    cases hj with
    | array hlength hitems =>
      obtain ⟨i, hi⟩ := List.mem_iff_getElem?.1 hw
      have hbound := hlength ▸ (List.getElem?_eq_some_iff.1 hi).1
      exact ⟨_, hitems i _ _ hi (List.getElem?_eq_getElem hbound)⟩
  | slot hw =>
    cases hj with
    | object hnames hvalues => exact hentry hnames hvalues hw
  | field hw =>
    cases hj with
    | struct hnames hvalues => exact hentry hnames hvalues hw
  | content b =>
    cases hj with
    | box hcontent => exact ⟨_, hcontent⟩

/-- So does all that is exported with it. -/
theorem reach (hj : h.Tree v j) (hw : ReflTransGen h.Exports v w) : ∃ k, h.Tree w k := by
  induction hw with
  | refl => exact ⟨j, hj⟩
  | tail _ hw ih =>
    obtain ⟨k, hk⟩ := ih
    exact hk.step hw

/-- A value with a tree exports no **address**. -/
theorem no_address (hj : h.Tree v j) (l : Location) : ¬ ReflTransGen h.Exports v (.address l) := by
  intro hl
  obtain ⟨k, hk⟩ := hj.reach hl
  cases hk

end Tree

/-! ## What an export computes -/

/-- How the export of a value **comes out**: a document for its tree, or the address that has none. -/
inductive Outcome (h : Heap) (v : Value) : Except ExportError Document → Prop
  /-- The document stands for the tree. -/
  | exported {d : Document} {j : Json} (hd : d.json? = some j) (hj : h.Tree v j) : Outcome h v (.ok d)
  /-- There is an address in the value. -/
  | refused {l : Location} (hl : ReflTransGen h.Exports v (.address l)) :
      Outcome h v (.error (.address (h.placeDebug l)))

/-- Several values are exported one by one, up to the first address. -/
theorem outcome_items {f : Value → Except ExportError Document} (vs : List Value)
    (hvs : ∀ v ∈ vs, h.Outcome v (f v)) :
    (∃ ds js, vs.mapM f = .ok ds ∧ Document.jsonAll? ds = some js ∧ js.length = vs.length ∧
      ∀ (i : Nat) (v : Value) (j : Json), vs[i]? = some v → js[i]? = some j → h.Tree v j) ∨
    ∃ v ∈ vs, ∃ l, ReflTransGen h.Exports v (.address l) ∧ vs.mapM f = .error (.address (h.placeDebug l)) := by
  induction vs with
  | nil => exact .inl ⟨[], [], rfl, rfl, rfl, nofun⟩
  | cons v vs ih =>
    have hrest := ih fun w hw => hvs w (List.mem_cons_of_mem _ hw)
    have hfirst := hvs v List.mem_cons_self
    rw [List.mapM_cons]
    -- the first address stops the rest
    generalize f v = r at hfirst
    cases hfirst with
    | refused hl => exact .inr ⟨v, List.mem_cons_self, _, hl, rfl⟩
    | @exported d j hd hj =>
      rcases hrest with ⟨ds, js, hmap, hjs, hlength, hitems⟩ | ⟨w, hw, l, hl, hmap⟩
      · refine .inl ⟨d :: ds, j :: js, by rw [hmap]; rfl, Document.jsonAll?_cons.2 ⟨j, js, hd, hjs, rfl⟩,
          congrArg (· + 1) hlength, fun i u k hu hk => ?_⟩
        cases i with
        | zero =>
          cases hu
          cases hk
          exact hj
        | succ i => exact hitems i u k hu hk
      · exact .inr ⟨w, List.mem_cons_of_mem _ hw, l, hl, by rw [hmap]; rfl⟩

/-- So are named values. -/
theorem outcome_entries {follow : Value → Except ExportError Document} (t : Ty) (vs : List Value)
    (hvs : ∀ p ∈ t.named vs, h.Outcome p.2 (Document.ofValueWith h follow p.2)) :
    (∃ ds js, Document.entriesWith h follow t.fields vs = .ok ds ∧ Document.jsonEntries? ds = some js ∧
      js.map Prod.fst = (t.named vs).map Prod.fst ∧
      ∀ (i : Nat) (v : String × Value) (j : String × Json),
        (t.named vs)[i]? = some v → js[i]? = some j → h.Tree v.2 j.2) ∨
    ∃ p ∈ t.named vs, ∃ l, ReflTransGen h.Exports p.2 (.address l) ∧
      Document.entriesWith h follow t.fields vs = .error (.address (h.placeDebug l)) := by
  rw [Ty.named] at *
  generalize t.fields = fields at *
  induction fields generalizing vs with
  | nil => exact .inl ⟨[], [], by simp [Document.entriesWith], rfl, rfl, nofun⟩
  | cons field fields ih =>
    obtain ⟨name, u⟩ := field
    cases vs with
    | nil => exact .inl ⟨[], [], by simp [Document.entriesWith], rfl, rfl, nofun⟩
    | cons v vs =>
      have hrest := ih vs fun p hp => hvs p (List.mem_cons_of_mem _ hp)
      have hfirst := hvs (name, v) List.mem_cons_self
      rw [Document.entriesWith]
      dsimp only at hfirst
      generalize Document.ofValueWith h follow v = r at hfirst
      cases hfirst with
      | refused hl => exact .inr ⟨(name, v), List.mem_cons_self, _, hl, rfl⟩
      | @exported d j hd hj =>
        rcases hrest with ⟨ds, js, hall, hjs, hnames, hvalues⟩ | ⟨p, hp, l, hl, hall⟩
        · refine .inl ⟨(name, d) :: ds, (name, j) :: js, by rw [hall]; rfl,
            Document.jsonEntries?_cons.2 ⟨j, js, hd, hjs, rfl⟩, congrArg (name :: ·) hnames, fun i u k hu hk => ?_⟩
          cases i with
          | zero =>
            cases hu
            cases hk
            exact hj
          | succ i => exact hvalues i u k hu hk
        · exact .inr ⟨p, List.mem_cons_of_mem _ hp, l, hl, by rw [hall]; rfl⟩

/-- A record of parts that are exported comes out as the tree of the value that they are parts of. -/
theorem outcome_record {follow : Value → Except ExportError Document} {t : Ty} {vs : List Value}
    (hexports : ∀ p ∈ t.named vs, h.Exports v p.2)
    (htree : ∀ {js : List (String × Json)}, js.map Prod.fst = (t.named vs).map Prod.fst →
      (∀ (i : Nat) (w : String × Value) (j : String × Json),
        (t.named vs)[i]? = some w → js[i]? = some j → h.Tree w.2 j.2) → h.Tree v (.object js))
    (hparts : ∀ w, h.Exports v w → h.Outcome w (Document.ofValueWith h follow w)) :
    h.Outcome v (.record <$> Document.entriesWith h follow t.fields vs) := by
  rcases outcome_entries t vs fun p hp => hparts p.2 (hexports p hp) with
    ⟨ds, js, hall, hjs, hnames, hvalues⟩ | ⟨p, hp, l, hl, hall⟩
  · have hd : (Document.record ds).json? = some (.object js) := by
      rw [Document.json?, hjs]
      rfl
    rw [hall]
    exact .exported hd (htree hnames hvalues)
  · rw [hall]
    exact .refused (.head (hexports p hp) hl)

/-- A scalar that is no float is exported as its tree. -/
theorem exists_tree_scalar {s : Scalar} (hs : ∀ k x, Value.scalar s ≠ .scalar (.float k x)) :
    ∃ j, (Document.ofScalar s).json? = some j ∧ h.Tree (.scalar s) j := by
  cases s with
  | bool b => exact ⟨_, rfl, .bool b⟩
  | float k x => exact absurd rfl (hs k x)
  | word k x =>
    by_cases hk : k = .char
    · subst hk
      by_cases hhalf : 0xD800 ≤ x.toNat ∧ x.toNat < 0xE000
      · refine ⟨_, ?_, .surrogate hhalf.1 hhalf.2⟩
        rw [Document.ofScalar, if_pos hhalf]
        rfl
      · refine ⟨_, ?_, .char (c := Char.ofNat x.toNat) ?_⟩
        · rw [Document.ofScalar, if_neg hhalf]
          rfl
        · have hbound : x.toNat < 65536 := x.isLt
          have hvalid : x.toNat.isValidChar := by
            simp only [Nat.isValidChar]
            omega
          rw [Char.ofNat, dif_pos hvalid]
          rfl
    · refine ⟨_, ?_, .integer hk x⟩
      cases k with
      | char => exact absurd rfl hk
      | _ => rfl

/-- On a budget for its depth, **the export of a value gives its tree, or fails on an address**. -/
theorem outcome_of_depth (hdepth : v.Depth h.Exports n) (hv : h.Exportable v) :
    h.Outcome v (Document.ofValueWith h (Document.ofReference h n) v) := by
  induction hdepth with
  | @plain n v hcell _ ih =>
    have hparts : ∀ w, h.Exports v w → h.Outcome w (Document.ofValueWith h (Document.ofReference h n) w) :=
      fun w hw => ih w hw (hv.step hw)
    cases v with
    | null => exact .exported (d := .null) rfl .null
    | scalar s =>
      obtain ⟨j, hd, hj⟩ := exists_tree_scalar (hv.no_float _ .refl)
      rw [Document.ofValueWith]
      exact .exported hd hj
    | text s => exact .exported (d := .text s) rfl (.text s)
    | handle t => exact .exported (d := .text t.path) rfl (.handle t)
    | struct t fields =>
      rw [Document.ofValueWith]
      exact outcome_record (fun p hp => .field hp) .struct hparts
    | address l => exact .refused .refl
    | array a => cases hcell
    | object o => cases hcell
    | boxed b => cases hcell
  | @cell n v c hcell _ ih =>
    -- one reference of the budget is used up
    have hparts : ∀ w, h.Exports v w → h.Outcome w (Document.ofValueWith h (Document.ofReference h n) w) :=
      fun w hw => ih w hw (hv.step hw)
    cases v with
    | array a =>
      rw [Document.ofValueWith, Document.ofReference]
      rcases outcome_items _ fun w hw => hparts w (.item hw) with
        ⟨ds, js, hall, hjs, hlength, hitems⟩ | ⟨w, hw, l, hl, hall⟩
      · have hd : (Document.list ds).json? = some (.array js) := by
          rw [Document.json?, hjs]
          rfl
        rw [hall]
        exact .exported hd (.array hlength hitems)
      · rw [hall]
        exact .refused (.head (.item hw) hl)
    | object o =>
      rw [Document.ofValueWith, Document.ofReference]
      exact outcome_record (fun p hp => .slot hp) .object hparts
    | boxed b =>
      have hcontent := hparts _ (.content b)
      rw [Document.ofValueWith, Document.ofReference]
      generalize Document.ofValueWith h (Document.ofReference h n) (h.getBox b) = r at hcontent
      cases hcontent with
      | exported hd hj => exact .exported hd (.box hj)
      | refused hl => exact .refused (.head (.content b) hl)
    | _ => cases hcell

/-- The export of an exportable value gives its tree, or fails on an address. -/
theorem outcome_of_exportable (hv : h.Exportable v) : h.Outcome v (Document.ofValue h v) :=
  outcome_of_depth (depth_of_exportable hv) hv

/-- An export **fails exactly on addresses**, and names one that is in the value. -/
theorem ofValue_error_iff (hv : h.Exportable v) :
    ((∃ e, Document.ofValue h v = .error e) ↔ ∃ l, ReflTransGen h.Exports v (.address l)) ∧
      ∀ e, Document.ofValue h v = .error e →
        ∃ l, ReflTransGen h.Exports v (.address l) ∧ e = .address (h.placeDebug l) := by
  have houtcome := outcome_of_exportable hv
  generalize Document.ofValue h v = r at houtcome
  cases houtcome with
  | exported hd hj =>
    refine ⟨⟨nofun, fun hl => ?_⟩, nofun⟩
    obtain ⟨l, hl⟩ := hl
    exact absurd hl (hj.no_address l)
  | @refused l hl =>
    refine ⟨⟨fun _ => ⟨l, hl⟩, fun _ => ⟨_, rfl⟩⟩, ?_⟩
    rintro e ⟨⟩
    exact ⟨l, hl, rfl⟩

/-- An export that succeeds gives the tree of the value. -/
theorem exists_tree {d : Document} (hv : h.Exportable v) (hd : Document.ofValue h v = .ok d) :
    ∃ j, d.json? = some j ∧ h.Tree v j := by
  have houtcome := outcome_of_exportable hv
  rw [hd] at houtcome
  cases houtcome with
  | exported hd hj => exact ⟨_, hd, hj⟩

/-- **Exports are faithful.** The export of an acyclic value without floats fails exactly if there is an address
in it, and the error names one. Else its text is JSON for the one tree of the value, and the texts of two values,
in one heap or in two, are the same exactly if their trees are. -/
theorem export_faithful (floatText : (k : FloatKind) → BitVec k.bits → String) (hv : h.Exportable v)
    (hv' : h'.Exportable v') :
    ((∃ e, Document.ofValue h v = .error e) ↔ ∃ l, ReflTransGen h.Exports v (.address l)) ∧
    (∀ e, Document.ofValue h v = .error e →
      ∃ l, ReflTransGen h.Exports v (.address l) ∧ e = .address (h.placeDebug l)) ∧
    (∀ d, Document.ofValue h v = .ok d →
      ∃ j, h.Tree v j ∧ (∀ k, h.Tree v k → k = j) ∧ Json.parse (d.render floatText) = some j) ∧
    ∀ d d' j j', Document.ofValue h v = .ok d → Document.ofValue h' v' = .ok d' → h.Tree v j → h'.Tree v' j' →
      (d.render floatText = d'.render floatText ↔ j = j') := by
  obtain ⟨hfails, hnames⟩ := ofValue_error_iff hv
  refine ⟨hfails, hnames, fun d hd => ?_, fun d d' j j' hd hd' hj hj' => ?_⟩
  · obtain ⟨j, hjson, hj⟩ := exists_tree hv hd
    exact ⟨j, hj, fun k hk => hk.unique hj, Document.parse_render floatText hjson⟩
  · obtain ⟨i, hjson, hi⟩ := exists_tree hv hd
    obtain ⟨i', hjson', hi'⟩ := exists_tree hv' hd'
    rw [Document.render_eq_iff hjson hjson', hi.unique hj, hi'.unique hj']

/-- Two arrays of boxes of the number five: one holds a box twice, the other holds two boxes. -/
def boxedFives : Heap where
  arrays := #[⟨.object, #[.boxed ⟨0⟩, .boxed ⟨0⟩]⟩, ⟨.object, #[.boxed ⟨0⟩, .boxed ⟨1⟩]⟩]
  boxes := #[⟨.primitive .i32, .ofInt32 5⟩, ⟨.primitive .i32, .ofInt32 5⟩]

/-- A box of a number leads to itself and to the number. -/
theorem eq_of_boxed_scalar {i : BoxId} {s : Scalar} (hi : h.getBox i = .scalar s)
    (hw : ReflTransGen h.Exports (.boxed i) w) : w = .boxed i ∨ w = .scalar s := by
  rcases hw.cases_head with rfl | ⟨u, hu, hw⟩
  · exact .inl rfl
  · cases hu
    rw [hi] at hw
    rcases hw.cases_head with rfl | ⟨u, hu, -⟩
    · exact .inr rfl
    · cases hu

/-- An array of boxes of numbers that are no floats is exportable. -/
theorem exportable_array {a : ArrayId} (hitems : ∀ v ∈ (h.arrayCell a).items.toList,
    ∃ i k x, v = .boxed i ∧ h.getBox i = .scalar (.word k x)) : h.Exportable (.array a) := by
  refine exportable_of_forall nofun fun w hw => ?_
  cases hw with
  | item hw =>
    obtain ⟨i, k, x, rfl, hi⟩ := hitems w hw
    refine ⟨exportable_of_forall nofun fun u hu => ?_, fun hback => ?_⟩
    · cases hu
      rw [hi]
      refine ⟨exportable_of_forall nofun nofun, fun hback => ?_⟩
      rcases hback.cases_head with hsame | ⟨u, hu, -⟩
      · cases hsame
      · cases hu
    · rcases eq_of_boxed_scalar hi hback with hsame | hsame <;> cases hsame

/-- Whether its boxes are shared or not, the array is exported as the list of two numbers. -/
theorem export_faithful_boxedFives :
    (boxedFives.Exportable (.array ⟨0⟩) ∧ boxedFives.Exportable (.array ⟨1⟩)) ∧
      ∃ j, boxedFives.Tree (.array ⟨0⟩) j ∧ boxedFives.Tree (.array ⟨1⟩) j ∧
        Json.parse ((Document.list [.int 5, .int 5]).render fun _ _ => "") = some j := by
  have hshared : boxedFives.Exportable (.array ⟨0⟩) := by
    refine exportable_array fun v hv => ?_
    obtain rfl : v = .boxed ⟨0⟩ := by simpa [boxedFives, arrayCell] using hv
    exact ⟨_, .i32, _, rfl, rfl⟩
  have htwo : boxedFives.Exportable (.array ⟨1⟩) := by
    refine exportable_array fun v hv => ?_
    have hboth : v = .boxed ⟨0⟩ ∨ v = .boxed ⟨1⟩ := by simpa [boxedFives, arrayCell] using hv
    rcases hboth with rfl | rfl
    · exact ⟨_, .i32, _, rfl, rfl⟩
    · exact ⟨_, .i32, _, rfl, rfl⟩
  have hdocument : Document.ofValue boxedFives (.array ⟨0⟩) = .ok (.list [.int 5, .int 5]) := rfl
  have hdocument' : Document.ofValue boxedFives (.array ⟨1⟩) = .ok (.list [.int 5, .int 5]) := rfl
  obtain ⟨-, -, htree, hsame⟩ := export_faithful (fun _ _ => "") hshared htwo
  obtain ⟨-, -, htree', -⟩ := export_faithful (fun _ _ => "") htwo hshared
  obtain ⟨j, hj, -, hparse⟩ := htree _ hdocument
  obtain ⟨j', hj', -, -⟩ := htree' _ hdocument'
  -- the texts are the same, so the trees are
  obtain rfl := (hsame _ _ j j' hdocument hdocument' hj hj').1 rfl
  exact ⟨⟨hshared, htwo⟩, j, hj, hj', hparse⟩

end Heap

end Stackwright
