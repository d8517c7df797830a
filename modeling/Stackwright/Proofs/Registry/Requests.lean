import Stackwright.Proofs.Registry.Clients
import Mathlib.Data.List.Basic

/-! # Every interleaving settles a key once

Two facts about single steps carry the whole. A step of any course binds at most the key it settles, and
what the log says was seen is still bound. And the entries of one number are, at any time, a beginning of
one of three accounts of a request, whatever the other entries between them are; this follows the course
of an errand, whose continuation heeds the account that its number has come to. -/

namespace Stackwright

namespace Registry

/-- The whole **account** of a request for a key: the key is found, or the build fails, or the build
succeeds and the key is settled. -/
inductive Account (key : String) : List Event → Prop
  /-- The key is bound, and nothing is built. -/
  | found (q : Procedure) : Account key
      [.remark (.asked key), .looked key (some q), .remark (.answered (.ok q))]
  /-- The key is absent, and the build fails. -/
  | failed (e : BuildError) : Account key
      [.remark (.asked key), .looked key none, .remark .building, .remark (.built (.error e)),
        .remark (.warned (failureMessage key e)), .remark (.answered (.error e))]
  /-- The key is absent, and what was built is offered. -/
  | made (p q : Procedure) : Account key
      [.remark (.asked key), .looked key none, .remark .building, .remark (.built (.ok p)),
        .settled key p q, .remark (.answered (.ok q))]

/-- Entries that a number may have left so far: those of a lookup or of a request. -/
def Heard (es : List Event) : Prop :=
  (∃ key found, es <+: [.looked key found]) ∨ ∃ key account, Account key account ∧ es <+: account

/-- The entries of one number. -/
def record (id : Nat) (log : List (Nat × Event)) : List Event :=
  (log.filter (·.1 == id)).map Prod.snd

theorem record_append (id : Nat) (log news : List (Nat × Event)) :
    record id (log ++ news) = record id log ++ record id news := by simp [record]

@[simp] theorem record_self (id : Nat) (e : Event) : record id [(id, e)] = [e] := by simp [record]

theorem record_of_ne {id other : Nat} (e : Event) (h : other ≠ id) : record id [(other, e)] = [] := by
  simp [record, h]

@[simp] theorem mem_record {id : Nat} {e : Event} {log : List (Nat × Event)} :
    e ∈ record id log ↔ (id, e) ∈ log := by simp [record]

/-! ## What the log says about the registry -/

/-- What was offered, in order. -/
def offers (log : List (Nat × Event)) : List (String × Procedure) :=
  log.filterMap fun
    | (_, .settled key offered _) => some (key, offered)
    | _ => none

theorem offers_append (log news : List (Nat × Event)) :
    offers (log ++ news) = offers log ++ offers news := List.filterMap_append

/-- The offers do without the entries of a number that has settled nothing. -/
theorem offers_filter {id : Nat} {log : List (Nat × Event)}
    (h : ∀ key p q, .settled key p q ∉ record id log) :
    offers (log.filter (·.1 != id)) = offers log := by
  rw [offers, List.filterMap_filter]
  refine List.filterMap_congr fun e he => ?_
  obtain ⟨other, e⟩ := e
  by_cases hid : other = id
  · cases e with
    | settled key p q => exact absurd (mem_record.mpr (hid ▸ he)) (h key p q)
    | _ => simp
  · simp [hid]

/-- A registry after offers. -/
def publishAll (r : Registry) (offers : List (String × Procedure)) : Registry :=
  offers.foldl (fun r offer => r.publish offer.1 offer.2) r

/-- Offers leave every bound key alone. -/
theorem get?_publishAll {r : Registry} {key : String} {q : Procedure} (os : List (String × Procedure))
    (h : r.get? key = some q) : (r.publishAll os).get? key = some q := by
  induction os generalizing r with
  | nil => exact h
  | cons o os ih => exact ih (get?_publish_of_get? h)

/-- The procedure that a key is settled on is bound to it. -/
theorem get?_settle (r : Registry) (key : String) (p : Procedure) :
    (r.settle key p).2.get? key = some (r.settle key p).1 := by
  simp [settle, get?_publish_self]

/-- An entry **holds** of a registry if the procedure that was seen is bound. -/
def Event.HoldsIn (r : Registry) : Event → Prop
  | .looked key (some q) | .settled key _ q => r.get? key = some q
  | _ => True

/-- What comes of the shared state: entries are appended, the registry changes by their offers alone, and
what they say holds. -/
structure Shared.Leads (s s' : Shared) (news : List (Nat × Event)) : Prop where
  /-- The log. -/
  log : s'.log = s.log ++ news
  /-- The registry. -/
  registry : s'.registry = s.registry.publishAll (offers news)
  /-- What the new entries say. -/
  holds : ∀ e ∈ news, e.2.HoldsIn s'.registry

/-- Whatever holds of a registry holds after more offers. -/
theorem Event.HoldsIn.publishAll {r : Registry} {e : Event} (os : List (String × Procedure))
    (h : e.HoldsIn r) : e.HoldsIn (r.publishAll os) := by
  unfold Event.HoldsIn at h ⊢
  split at h
  · exact get?_publishAll os h
  · exact get?_publishAll os h
  · trivial

theorem Shared.Leads.refl (s : Shared) : s.Leads s [] := ⟨by simp, rfl, by simp⟩

theorem Shared.Leads.trans {s₁ s₂ s₃ : Shared} {news later : List (Nat × Event)}
    (h₁ : s₁.Leads s₂ news) (h₂ : s₂.Leads s₃ later) : s₁.Leads s₃ (news ++ later) where
  log := by rw [h₂.log, h₁.log, List.append_assoc]
  registry := by
    rw [h₂.registry, h₁.registry, offers_append]
    exact (List.foldl_append ..).symm
  holds e he := by
    cases List.mem_append.mp he with
    | inl he => rw [h₂.registry]; exact (h₁.holds e he).publishAll _
    | inr he => exact h₂.holds e he

/-- One step of any course. -/
theorem Course.leads_step {α : Type} (answer : Nat) (c : Course α) (s : Shared) :
    ∃ news, s.Leads (c.step answer s).2 news := by
  cases c with
  | done a => exact ⟨[], .refl s⟩
  | number next => exact ⟨[], ⟨by simp [step], rfl, by simp⟩⟩
  | outside next => exact ⟨[], .refl s⟩
  | remark id r next => exact ⟨[(id, .remark r)], ⟨rfl, rfl, by simp [Event.HoldsIn]⟩⟩
  | look id key next =>
    refine ⟨[(id, .looked key (s.registry.get? key))], ⟨rfl, rfl, ?_⟩⟩
    cases h : s.registry.get? key <;> simp [Event.HoldsIn, step, Shared.tell, h]
  | settle id key p next =>
    refine ⟨[(id, .settled key p (s.registry.settle key p).1)], ⟨rfl, rfl, ?_⟩⟩
    simp [Event.HoldsIn, step, Shared.tell, get?_settle]

/-- Every schedule. -/
theorem Pool.leads_run (pool : Pool) (turns : List Turn) :
    ∃ news, pool.shared.Leads (pool.run turns).shared news := by
  refine run_induction (P := fun later => ∃ news, pool.shared.Leads later.shared news)
    (fun now turn ⟨news, h⟩ => ?_) pool turns ⟨[], .refl _⟩
  unfold Pool.step
  split
  · exact ⟨news, h⟩
  · next c _ =>
    obtain ⟨more, hc⟩ := c.leads_step turn.answer now.shared
    exact ⟨news ++ more, h.trans hc⟩

/-! ## What the entries of one number are -/

/-- The record of a number after an entry of some number. Before a course takes the number it has none. -/
def extend (id : Nat) (t : Option (List Event)) (other : Nat) (e : Event) : Option (List Event) :=
  if other = id then t.map (· ++ [e]) else t

/-- A course with a record of a number may leave an entry: of another number, or of this one if the
record goes on as an account does. -/
def Admits (id : Nat) (t : Option (List Event)) (other : Nat) (e : Event) : Prop :=
  other = id → ∃ es, t = some es ∧ Heard (es ++ [e])

/-- A course **heeds** a number's account, from a record of the number on, and ends as `Q` says. -/
def Course.Heeds {α : Type} (id : Nat) (Q : Option (List Event) → α → Prop) :
    Option (List Event) → Course α → Prop
  | t, .done a => Q t a
  | t, .look i key next => ∀ found, Admits id t i (.looked key found) ∧
    (next found).Heeds id Q (extend id t i (.looked key found))
  | t, .settle i key p next => ∀ q, Admits id t i (.settled key p q) ∧
    (next q).Heeds id Q (extend id t i (.settled key p q))
  | t, .remark i r next => Admits id t i (.remark r) ∧ next.Heeds id Q (extend id t i (.remark r))
  | t, .number next => (∀ n, n ≠ id → (next n).Heeds id Q t) ∧
    (t = none → (next id).Heeds id Q (some []))
  | t, .outside next => ∀ n, (next n).Heeds id Q t

section

variable {id : Nat} {t : Option (List Event)}

theorem admits_of_ne {other : Nat} {e : Event} (h : other ≠ id) : Admits id t other e :=
  fun h' => absurd h' h

theorem extend_of_ne {other : Nat} {e : Event} (h : other ≠ id) : extend id t other e = t := if_neg h

@[simp] theorem extend_self {es : List Event} {e : Event} :
    extend id (some es) id e = some (es ++ [e]) := if_pos rfl

theorem admits_self {es : List Event} {e : Event} (h : Heard (es ++ [e])) : Admits id (some es) id e :=
  fun _ => ⟨es, rfl, h⟩

/-- One course after another. -/
theorem Course.Heeds.bind {α β : Type} {Q : Option (List Event) → α → Prop}
    {R : Option (List Event) → β → Prop} {c : Course α} {k : α → Course β} (hc : c.Heeds id Q t)
    (hk : ∀ t a, Q t a → (k a).Heeds id R t) : (c.bind k).Heeds id R t := by
  induction c generalizing t with
  | done a => exact hk t a hc
  | look i key next ih => exact fun found => ⟨(hc found).1, ih found (hc found).2⟩
  | settle i key p next ih => exact fun q => ⟨(hc q).1, ih q (hc q).2⟩
  | remark i r next ih => exact ⟨hc.1, ih hc.2⟩
  | number next ih => exact ⟨fun n hn => ih n (hc.1 n hn), fun ht => ih id (hc.2 ht)⟩
  | outside next ih => exact fun n => ih n (hc n)

/-- A weaker end. -/
theorem Course.Heeds.imp {α : Type} {Q R : Option (List Event) → α → Prop} {c : Course α}
    (hc : c.Heeds id Q t) (h : ∀ t a, Q t a → R t a) : c.Heeds id R t := by
  induction c generalizing t with
  | done a => exact h t a hc
  | look i key next ih => exact fun found => ⟨(hc found).1, ih found (hc found).2⟩
  | settle i key p next ih => exact fun q => ⟨(hc q).1, ih q (hc q).2⟩
  | remark i r next ih => exact ⟨hc.1, ih hc.2⟩
  | number next ih => exact ⟨fun n hn => ih n (hc.1 n hn), fun ht => ih id (hc.2 ht)⟩
  | outside next ih => exact fun n => ih n (hc n)

/-- A beginning of an account is heard of. -/
theorem Account.heard {key : String} {account es : List Event} (h : Account key account)
    (hes : es <+: account) : Heard es := .inr ⟨key, account, h, hes⟩

/-- A request as a course: its lookup, and the rest if nothing was found. -/
theorem obtain_run (key : String) (build : Course (Except BuildError Procedure)) (id : Nat) :
    (obtain warn key (watched build)).run id = .look id key fun
      | some p => .done (.ok p)
      | none => .remark id .building <|
        (build.bind fun result => .remark id (.built result) (.done result)).bind fun
          | .error e => .remark id (.warned (failureMessage key e)) (.done (.error e))
          | .ok p => .settle id key p fun q => .done (.ok q) := by
  refine congrArg (Course.look id key) (funext fun found => ?_)
  cases found with
  | some p => rfl
  | none =>
    refine congrArg (Course.remark id .building) (congrArg (Course.bind _) (funext fun result => ?_))
    cases result <;> rfl

/-- The course of an errand keeps the record of a number that another course has taken. -/
def Kept (t : Option (List Event)) {α : Type} (t' : Option (List Event)) (_ : α) : Prop :=
  ∀ es, t = some es → t' = some es

/-- A request with another number. -/
theorem heeds_obtain_of_ne {key : String} {build : Course (Except BuildError Procedure)} {other : Nat}
    (hother : other ≠ id) (hbuild : build.Heeds id (Kept t) t) :
    ((obtain warn key (watched build)).run other).Heeds id (Kept t) t := by
  have hkeep {e : Event} {c : Course (Except BuildError Procedure)} {t' : Option (List Event)}
      (hc : c.Heeds id (Kept t) t') : Admits id t' other e ∧ c.Heeds id (Kept t) (extend id t' other e) :=
    ⟨admits_of_ne hother, by rwa [extend_of_ne hother]⟩
  rw [obtain_run]
  intro found
  cases found with
  | some p => exact hkeep fun _ h => h
  | none =>
    refine hkeep (hkeep (.bind (.bind hbuild fun t' result ht => hkeep ht) fun t' result ht => ?_))
    cases result with
    | error e => exact hkeep ht
    | ok p => exact fun q => hkeep ht

/-- A request with this number, once the course has taken it. -/
theorem heeds_obtain_self {key : String} {build : Course (Except BuildError Procedure)}
    (hbuild : ∀ es, build.Heeds id (Kept (some es)) (some es)) :
    ((obtain warn key (watched build)).run id).Heeds id
      (fun t result => ∃ es, t = some es ∧ Account key (es ++ [.remark (.answered result)]))
      (some [.remark (.asked key)]) := by
  rw [obtain_run]
  intro found
  cases found with
  | some p =>
    exact ⟨admits_self ((Account.found p).heard ⟨[.remark (.answered (.ok p))], rfl⟩),
      _, extend_self, .found p⟩
  | none =>
    -- either end of the build leads to an account that begins like this
    have hmissed (es : List Event) (hes : es <+: [.remark (.asked key), .looked key none,
        .remark .building, .remark (.built (.error .sessionAborted))]) : Heard es :=
      (Account.failed .sessionAborted).heard (hes.trans ⟨[_, _], rfl⟩)
    refine ⟨admits_self (hmissed _ ⟨[_, _], rfl⟩), ?_⟩
    rw [extend_self]
    refine ⟨admits_self (hmissed _ ⟨[_], rfl⟩), ?_⟩
    rw [extend_self]
    refine .bind (Q := fun t result => t = some [.remark (.asked key), .looked key none,
      .remark .building, .remark (.built result)]) (.bind (hbuild _) fun t result ht => ?_) ?_
    · obtain rfl := ht _ rfl
      refine ⟨admits_self ?_, extend_self⟩
      cases result with
      | error e => exact (Account.failed e).heard ⟨[_, _], rfl⟩
      | ok p => exact (Account.made p p).heard ⟨[_, _], rfl⟩
    · rintro _ result rfl
      cases result with
      | error e =>
        exact ⟨admits_self ((Account.failed e).heard ⟨[_], rfl⟩), _, extend_self, .failed e⟩
      | ok p =>
        exact fun q => ⟨admits_self ((Account.made p q).heard ⟨[_], rfl⟩), _, extend_self, .made p q⟩

/-- **An errand heeds the account of every number**, whichever of its requests has it, or none. -/
theorem Errand.heeds_course (errand : Errand) (t : Option (List Event)) :
    errand.course.Heeds id (Kept t) t := by
  induction errand generalizing t with
  | give result => exact fun _ h => h
  | outside next ih => exact fun n => ih n t
  | peek key next ih =>
    refine ⟨fun n hn found => ⟨admits_of_ne hn, ?_⟩, ?_⟩
    · rw [extend_of_ne hn]
      exact ih found t
    · rintro rfl found
      exact ⟨admits_self (.inl ⟨key, found, List.prefix_rfl⟩), (ih found _).imp (by simp [Kept])⟩
  | request key build next ihbuild ihnext =>
    refine ⟨fun n hn => ⟨admits_of_ne hn, ?_⟩, ?_⟩
    · rw [extend_of_ne hn]
      refine .bind (heeds_obtain_of_ne hn (ihbuild t)) fun t' result ht => ⟨admits_of_ne hn, ?_⟩
      rw [extend_of_ne hn]
      exact (ihnext result t').imp fun _ _ h es hes => h es (ht es hes)
    · rintro rfl
      refine ⟨admits_self ((Account.failed .sessionAborted).heard ⟨[_, _, _, _, _], rfl⟩), ?_⟩
      rw [extend_self]
      refine .bind (heeds_obtain_self fun es => ihbuild (some es)) ?_
      rintro _ result ⟨es, rfl, hes⟩
      exact ⟨admits_self (hes.heard List.prefix_rfl), (ihnext result _).imp (by simp [Kept])⟩

end

/-! ## Pools -/

/-- Who has a number: no client before it is taken, and one client from then on. -/
structure Pool.Tracks (pool : Pool) (id : Nat) (owner : Option Nat) : Prop where
  /-- Numbers are taken in order. -/
  fresh : pool.shared.issued ≤ id → owner = none
  /-- A number that is not taken leaves no entry. -/
  silent : owner = none → record id pool.shared.log = []
  /-- The record so far. -/
  heard : Heard (record id pool.shared.log)
  /-- Every client goes on as the record says. -/
  heeds : ∀ (j : Nat) (c : Course (Except BuildError Procedure)), pool.clients[j]? = some c →
    c.Heeds id (fun _ _ => True) (if owner = some j then some (record id pool.shared.log) else none)

namespace Pool.Tracks

variable {pool : Pool} {id j : Nat} {owner : Option Nat}
  {c next : Course (Except BuildError Procedure)}

/-- A client whose step leaves no entry. -/
theorem quiet (h : pool.Tracks id owner)
    (hnext : next.Heeds id (fun _ _ => True)
      (if owner = some j then some (record id pool.shared.log) else none)) :
    Tracks ⟨pool.clients.set j next, pool.shared⟩ id owner where
  fresh := h.fresh
  silent := h.silent
  heard := h.heard
  heeds j' c' hc' := by
    rw [List.getElem?_set] at hc'
    split at hc'
    · next hj =>
      split at hc'
      · obtain rfl := Option.some.inj hc'
        exact hj ▸ hnext
      · cases hc'
    · exact h.heeds j' c' hc'

/-- A client whose step leaves an entry. -/
theorem tell (h : pool.Tracks id owner) (r : Registry) {i : Nat} {e : Event}
    (hstep : Admits id (if owner = some j then some (record id pool.shared.log) else none) i e ∧
      next.Heeds id (fun _ _ => True)
        (extend id (if owner = some j then some (record id pool.shared.log) else none) i e)) :
    Tracks ⟨pool.clients.set j next, { pool.shared with registry := r }.tell i e⟩ id owner := by
  obtain ⟨hadmits, hnext⟩ := hstep
  by_cases hi : i = id
  · subst hi
    obtain ⟨es, hes, hheard⟩ := hadmits rfl
    have howner : owner = some j := by
      split at hes
      · assumption
      · cases hes
    have hrecord : record i (pool.shared.log ++ [(i, e)]) = es ++ [e] := by
      rw [if_pos howner] at hes
      rw [record_append, record_self, Option.some.inj hes]
    rw [hes, extend_self] at hnext
    refine ⟨h.fresh, fun hnone => by simp [howner] at hnone, hrecord ▸ hheard, fun j' c' hc' => ?_⟩
    rw [List.getElem?_set] at hc'
    split at hc'
    · next hj =>
      split at hc'
      · obtain rfl := Option.some.inj hc'
        rw [if_pos (hj ▸ howner)]
        exact hrecord ▸ hnext
      · cases hc'
    · next hj =>
      have hne : ¬owner = some j' := by simp [howner, hj]
      rw [if_neg hne]
      simpa [hne] using h.heeds j' c' hc'
  · have hrecord : record id (pool.shared.log ++ [(i, e)]) = record id pool.shared.log := by
      rw [record_append, record_of_ne e hi, List.append_nil]
    rw [extend_of_ne hi] at hnext
    have hquiet := h.quiet hnext
    exact ⟨h.fresh, fun hnone => hrecord.trans (h.silent hnone), hrecord ▸ h.heard,
      fun j' c' hc' => hrecord ▸ hquiet.heeds j' c' hc'⟩

/-- The next number goes to whoever asks for it. -/
theorem number {next : Nat → Course (Except BuildError Procedure)} (h : pool.Tracks id owner)
    (hnext : (Course.number next).Heeds id (fun _ _ => True)
      (if owner = some j then some (record id pool.shared.log) else none)) :
    ∃ owner, Tracks ⟨pool.clients.set j (next pool.shared.issued),
      { pool.shared with issued := pool.shared.issued + 1 }⟩ id owner := by
  by_cases hid : pool.shared.issued = id
  · have howner : owner = none := h.fresh (by omega)
    subst howner
    have hrecord := h.silent rfl
    refine ⟨some j, fun hle => ?_, by simp, h.heard, fun j' c' hc' => ?_⟩
    · simp only at hle
      omega
    rw [List.getElem?_set] at hc'
    split at hc'
    · next hj =>
      split at hc'
      · obtain rfl := Option.some.inj hc'
        rw [if_pos (by rw [hj]), hrecord, hid]
        exact hnext.2 (by simp)
      · cases hc'
    · next hj =>
      simpa [hj] using h.heeds j' c' hc'
  · have hquiet := h.quiet (hnext.1 _ hid)
    refine ⟨owner, fun hle => h.fresh ?_, hquiet.silent, hquiet.heard, hquiet.heeds⟩
    simp only at hle
    omega

/-- **A turn.** -/
theorem step (h : pool.Tracks id owner) (turn : Turn) : ∃ owner, (pool.step turn).Tracks id owner := by
  unfold Pool.step
  split
  · exact ⟨owner, h⟩
  · next c hc =>
    have hheeds := h.heeds turn.client c hc
    cases c with
    | done a => exact ⟨owner, h.quiet hheeds⟩
    | outside next => exact ⟨owner, h.quiet (hheeds turn.answer)⟩
    | number next => exact h.number hheeds
    | look i key next => exact ⟨owner, h.tell pool.shared.registry (hheeds _)⟩
    | settle i key p next => exact ⟨owner, h.tell _ (hheeds _)⟩
    | remark i r next => exact ⟨owner, h.tell pool.shared.registry hheeds⟩

/-- Before the first turn. -/
theorem start (r : Registry) (errands : List Errand) : (Pool.start r errands).Tracks id none where
  fresh _ := rfl
  silent _ := rfl
  heard := .inr ⟨"", _, .failed .sessionAborted, List.nil_prefix⟩
  heeds j c hc := by
    rw [Pool.start, List.getElem?_map, Option.map_eq_some_iff] at hc
    obtain ⟨errand, -, rfl⟩ := hc
    simpa using (errand.heeds_course none).imp fun _ _ _ => trivial

end Pool.Tracks

/-- **Under every schedule each number leaves a beginning of an account.** -/
theorem Pool.heard_run (r : Registry) (errands : List Errand) (turns : List Turn) (id : Nat) :
    Heard (record id ((Pool.start r errands).run turns).shared.log) := by
  obtain ⟨owner, h⟩ := Pool.run_induction (P := fun pool => ∃ owner, pool.Tracks id owner)
    (fun pool turn ⟨_, h⟩ => h.step turn) (Pool.start r errands) turns ⟨none, .start r errands⟩
  exact h.heard

/-- The account of a request whose beginning is in the log. -/
theorem Heard.exists_account {es : List Event} {key : String} (h : Heard es)
    (hasked : .remark (.asked key) ∈ es) : ∃ account, Account key account ∧ es <+: account := by
  rcases h with ⟨k, found, h⟩ | ⟨k, account, ha, h⟩
  · have := h.subset hasked
    simp at this
  · have hk : .remark (.asked key) ∈ account := h.subset hasked
    have : key = k := by cases ha <;> simpa using hk
    exact ⟨account, this ▸ ha, h⟩

namespace Account

variable {key : String} {account es : List Event}

/-- An account that has come to its answer is whole. -/
theorem eq_of_answered {result : Except BuildError Procedure} (h : Account key account)
    (hes : es <+: account) (hanswer : .remark (.answered result) ∈ es) : es = account := by
  have hlast (before : List Event) (e : Event) (hes : es <+: before ++ [e])
      (hbefore : .remark (.answered result) ∉ before) : es = before ++ [e] :=
    (List.prefix_concat_iff.mp hes).resolve_right fun h => hbefore (h.subset hanswer)
  cases h with
  | found q => exact hlast [_, _] _ hes (by simp)
  | failed e => exact hlast [_, _, _, _, _] _ hes (by simp)
  | made p q => exact hlast [_, _, _, _, _] _ hes (by simp)

/-- A build begins only after its lookup found nothing. -/
theorem missed_of_building (h : Account key account) (hes : es <+: account)
    (hbuilding : .remark .building ∈ es) : .looked key none ∈ es := by
  cases h with
  | found q => simpa using hes.subset hbuilding
  | failed e =>
    rcases es with _ | ⟨e₁, _ | ⟨e₂, es⟩⟩ <;> simp_all [List.cons_prefix_cons]
  | made p q =>
    rcases es with _ | ⟨e₁, _ | ⟨e₂, es⟩⟩ <;> simp_all [List.cons_prefix_cons]

/-- An answered request has built if and only if its lookup found nothing. -/
theorem building_iff_missed {result : Except BuildError Procedure} (h : Account key account)
    (hes : es <+: account) (hanswer : .remark (.answered result) ∈ es) :
    .remark .building ∈ es ↔ .looked key none ∈ es := by
  rw [h.eq_of_answered hes hanswer]
  cases h <;> simp

/-- A success has an entry that says what is bound. -/
theorem bound_of_answered {q : Procedure} (h : Account key account) (hes : es <+: account)
    (hanswer : .remark (.answered (.ok q)) ∈ es) :
    ∃ e ∈ es, ∀ r : Registry, e.HoldsIn r → r.get? key = some q := by
  obtain rfl := h.eq_of_answered hes hanswer
  cases h with
  | found q' =>
    obtain rfl : q = q' := by simpa using hanswer
    exact ⟨.looked key (some q), by simp, fun _ h => h⟩
  | failed e => simp at hanswer
  | made p q' =>
    obtain rfl : q = q' := by simpa using hanswer
    exact ⟨.settled key p q, by simp, fun _ h => h⟩

/-- A request whose build has failed is a failed request. -/
theorem failed_of_built {e : BuildError} (h : Account key account) (hes : es <+: account)
    (hbuilt : .remark (.built (.error e)) ∈ es) :
    (∀ result, .remark (.answered result) ∈ es → result = .error e) ∧
      ∀ k p q, .settled k p q ∉ es := by
  have hsub := hes.subset
  cases h with
  | found q => simpa using hsub hbuilt
  | made p q => simpa using hsub hbuilt
  | failed e' =>
    obtain rfl : e = e' := by simpa using hsub hbuilt
    exact ⟨fun result hr => by simpa using hsub hr, fun k p q hs => by simpa using hsub hs⟩

end Account

/-- **A key is settled once.** Any clients use a registry at the same time, with requests that nest to any
depth; `now` is after any schedule and `after` is after any longer one.
1. A bound key keeps its procedure.
2. The registry changes by the offers in the log and by nothing else.
3. The entries of a request are the beginning of one account: it looks its key up once, and builds once
   or never.
4. A request that has succeeded has returned the procedure that is bound to its key from then on.
5. A build begins only if the lookup of its own request found nothing, and a request that is answered
   has built if and only if it found nothing.
6. A request whose build has failed answers with the error of the build, it offers nothing, and the
   registry is what the offers of the other requests have made of it. -/
theorem Pool.settles_once (r : Registry) (errands : List Errand) (turns later : List Turn) :
    let now := ((Pool.start r errands).run turns).shared
    let after := ((Pool.start r errands).run (turns ++ later)).shared
    (∀ key q, now.registry.get? key = some q → after.registry.get? key = some q) ∧
    now.registry = r.publishAll (offers now.log) ∧
    ∀ id key, (id, .remark (.asked key)) ∈ now.log →
      (∃ account, Account key account ∧ record id now.log <+: account) ∧
      (∀ q, (id, .remark (.answered (.ok q))) ∈ now.log → after.registry.get? key = some q) ∧
      ((id, .remark .building) ∈ now.log → (id, .looked key none) ∈ now.log) ∧
      (∀ result, (id, .remark (.answered result)) ∈ now.log →
        ((id, .remark .building) ∈ now.log ↔ (id, .looked key none) ∈ now.log)) ∧
      ∀ e, (id, .remark (.built (.error e))) ∈ now.log →
        (∀ result, (id, .remark (.answered result)) ∈ now.log → result = .error e) ∧
        (∀ k p q, (id, .settled k p q) ∉ now.log) ∧
        now.registry = r.publishAll (offers (now.log.filter (·.1 != id))) := by
  intro now after
  obtain ⟨news, hnow⟩ := (Pool.start r errands).leads_run turns
  obtain ⟨more, hafter⟩ := ((Pool.start r errands).run turns).leads_run later
  rw [← run_append] at hafter
  have hbound (key : String) (q : Procedure) (h : now.registry.get? key = some q) :
      after.registry.get? key = some q := by
    rw [hafter.registry]
    exact get?_publishAll _ h
  have hlog : now.log = news := hnow.log.trans (List.nil_append _)
  have hregistry : now.registry = r.publishAll (offers now.log) := hlog ▸ hnow.registry
  have hholds (id : Nat) (e : Event) (he : (id, e) ∈ now.log) : e.HoldsIn now.registry :=
    hnow.holds (id, e) (hlog ▸ he)
  refine ⟨hbound, hregistry, fun id key hasked => ?_⟩
  simp only [← mem_record] at hasked hholds ⊢
  obtain ⟨account, haccount, hes⟩ := (heard_run r errands turns id).exists_account hasked
  refine ⟨⟨account, haccount, hes⟩, fun q hanswer => hbound key q ?_,
    haccount.missed_of_building hes, fun _ => haccount.building_iff_missed hes, fun e hbuilt => ?_⟩
  · obtain ⟨e, he, hq⟩ := haccount.bound_of_answered hes hanswer
    exact hq _ (hholds id e he)
  · obtain ⟨hanswer, hsettled⟩ := haccount.failed_of_built hes hbuilt
    exact ⟨hanswer, hsettled, by rw [offers_filter hsettled]; exact hregistry⟩

/-- A build that obtains its own key loses to the request that it makes. -/
example (p q : Procedure) : ((Pool.start {} [.request "k"
    (.request "k" (.give (.ok q)) fun _ => .give (.ok p)) .give]).run
      (List.replicate 14 { client := 0 })).clients = [.done (.ok q)] := by
  cbv

end Registry

end Stackwright
