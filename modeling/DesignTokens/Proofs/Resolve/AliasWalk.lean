import DesignTokens.Resolve.Alias
import Mathlib.Tactic.Ring
import Mathlib.Tactic.Linarith
import Mathlib.Data.List.Nodup

/-!
# Alias chains and the plain walk of the alias graph

`Library.chainEnd` follows a chain of aliases with two stop conditions at once: a number of links
that may still be followed, and the variables that have been visited.  The graph of aliases has a
simpler reading, the walk that goes from each variable to the one its value names and remembers
nothing.

This file proves that the two agree on every graph.  A walk of at most `n` links has one of three
fates: it reaches a value (`Library.WalkReaches`), it breaks off at an unknown variable or at one
without a value (`Library.WalkBreaks`), or it still goes on (`Library.WalkGoesOn`).  The fates
exclude each other, and `Library.chainEnd` reports the one that the walk has.  The variables that
have been visited never change the report: coming back to one of them means that the walk runs
in a cycle, so that it goes on beyond every bound.
-/

namespace DesignTokens

/-- The last item with the id of an item is that item when no two have the same id. -/
lemma lastWith?_of_nodup {α : Type} {id : α → String} {items : List α} {a : α}
    (hids : (items.map id).Nodup) (ha : a ∈ items) : lastWith? id (id a) items = some a := by
  unfold lastWith?
  cases hfound : items.reverse.find? fun item => id item == id a with
  | none =>
    have hall := List.find?_eq_none.mp hfound a (List.mem_reverse.mpr ha)
    exact absurd (beq_self_eq_true (id a)) hall
  | some b =>
    have hb : b ∈ items := List.mem_reverse.mp (List.mem_of_find?_eq_some hfound)
    have hid : id b = id a := by
      have hbeq := List.find?_some hfound
      exact eq_of_beq hbeq
    rw [List.inj_on_of_nodup_map hids hb ha hid]

namespace Library

variable {l : Library} {mode : String} {u v w : Variable} {m n bound : Nat}

/-! ## The walk -/

/-- The walk from a variable along the aliases of a mode stands at a variable after a number of
links. -/
inductive Walk (l : Library) (mode : String) (v : Variable) : Nat → Variable → Prop
  | start : Walk l mode v 0 v
  | link {n : Nat} {w next : Variable} {id : String} (before : Walk l mode v n w)
      (names : l.valueInMode? w mode = some (.aliasOf id)) (known : l.byId? id = some next) :
      Walk l mode v (n + 1) next

/-- Within a number of links the walk comes to a variable with a value that is no alias. -/
def WalkReaches (l : Library) (mode : String) (v : Variable) (bound : Nat) (holder : Variable)
    (x : VariableValue) : Prop :=
  ∃ n ≤ bound, l.Walk mode v n holder ∧ l.valueInMode? holder mode = some x ∧
    ∀ id, x ≠ .aliasOf id

/-- Within a number of links the walk comes to a variable without a value, or follows a link to an
unknown variable. -/
def WalkBreaks (l : Library) (mode : String) (v : Variable) (bound : Nat) : Prop :=
  (∃ n ≤ bound, ∃ w, l.Walk mode v n w ∧ l.valueInMode? w mode = none) ∨
    ∃ n < bound, ∃ w id, l.Walk mode v n w ∧ l.valueInMode? w mode = some (.aliasOf id) ∧
      l.byId? id = none

/-- After a number of links the walk stands at an alias. -/
def WalkGoesOn (l : Library) (mode : String) (v : Variable) (bound : Nat) : Prop :=
  ∃ w id, l.Walk mode v bound w ∧ l.valueInMode? w mode = some (.aliasOf id)

/-- The walk from a variable comes into a cycle, at once or after some links. -/
def WalkCycles (l : Library) (mode : String) (v : Variable) : Prop :=
  ∃ n k w, l.Walk mode v n w ∧ l.Walk mode w (k + 1) w

/-! ## Laws of the walk -/

/-- After a number of links the walk stands at one variable only. -/
lemma Walk.unique (hw : l.Walk mode v n w) (hu : l.Walk mode v n u) : w = u := by
  induction hw generalizing u with
  | start =>
    cases hu
    rfl
  | link before names known ih =>
    cases hu with
    | link before' names' known' =>
      have hsame := ih before'
      subst hsame
      rw [names] at names'
      cases names'
      rw [known] at known'
      exact Option.some.inj known'

/-- A walk goes on where another one ends. -/
lemma Walk.append (hw : l.Walk mode v n w) (hu : l.Walk mode w m u) :
    l.Walk mode v (n + m) u := by
  induction hu with
  | start => exact hw
  | link before names known ih => exact ih.link names known

/-- What is left of a walk after some links is a walk from the place where it stands then. -/
lemma Walk.drop (hw : l.Walk mode v (m + n) w) (hu : l.Walk mode v m u) : l.Walk mode u n w := by
  induction n generalizing w with
  | zero =>
    rw [hw.unique hu]
    exact Walk.start
  | succ n ih =>
    cases hw with
    | link before names known => exact (ih before).link names known

/-- At every place before its end a walk has a link to a known variable. -/
lemma Walk.link_of_lt (hw : l.Walk mode v n w) (hm : m < n) :
    ∃ u id next, l.Walk mode v m u ∧ l.valueInMode? u mode = some (.aliasOf id) ∧
      l.byId? id = some next := by
  induction hw with
  | start => exact absurd hm (Nat.not_lt_zero m)
  | @link n w next id before names known ih =>
    rcases Nat.lt_succ_iff_lt_or_eq.mp hm with h | rfl
    · exact ih h
    · exact ⟨w, id, next, before, names, known⟩

/-- A cycle can be run through any number of times. -/
lemma Walk.repeat {k : Nat} (hw : l.Walk mode w k w) (times : Nat) :
    l.Walk mode w (times * k) w := by
  induction times with
  | zero =>
    rw [Nat.zero_mul]
    exact Walk.start
  | succ times ih =>
    rw [Nat.succ_mul]
    exact ih.append hw

/-- A walk that comes into a cycle goes on beyond every bound. -/
lemma WalkCycles.goesOn (h : l.WalkCycles mode v) (bound : Nat) : l.WalkGoesOn mode v bound := by
  obtain ⟨n, k, w, hto, hcycle⟩ := h
  have hlong : l.Walk mode v (n + (bound + 1) * (k + 1)) w :=
    hto.append (hcycle.repeat (bound + 1))
  have hlt : bound < n + (bound + 1) * (k + 1) := by nlinarith
  obtain ⟨u, id, _, hu, hid, _⟩ := hlong.link_of_lt hlt
  exact ⟨u, id, hu, hid⟩

/-- No walk is longer than one whose last variable has no link to a known variable. -/
lemma Walk.length_le_of_stop (hw : l.Walk mode v n w)
    (hstop : ∀ id, l.valueInMode? w mode = some (.aliasOf id) → l.byId? id = none)
    (hu : l.Walk mode v m u) : m ≤ n := by
  by_contra hlt
  obtain ⟨w', id, next, hw', hid, hnext⟩ := hu.link_of_lt (Nat.lt_of_not_le hlt)
  have hsame := hw.unique hw'
  subst hsame
  rw [hstop id hid] at hnext
  cases hnext

/-- A variable without an alias has no link to a known variable. -/
lemma no_link_of_ne_alias {x : Option VariableValue} (hx : l.valueInMode? w mode = x)
    (halias : ∀ id, x ≠ some (.aliasOf id)) (id : String)
    (hid : l.valueInMode? w mode = some (.aliasOf id)) : l.byId? id = none :=
  absurd (hx.symm.trans hid) (halias id)

/-! ## The three fates exclude each other -/

/-- The walk reaches one value only. -/
lemma WalkReaches.unique {holder holder' : Variable} {x x' : VariableValue}
    (h : l.WalkReaches mode v bound holder x) (h' : l.WalkReaches mode v bound holder' x') :
    holder = holder' ∧ x = x' := by
  obtain ⟨n, _, hw, hx, hne⟩ := h
  obtain ⟨m, _, hw', hx', hne'⟩ := h'
  have hmn : m ≤ n := hw.length_le_of_stop
    (no_link_of_ne_alias hx fun id he => hne id (Option.some.inj he)) hw'
  have hnm : n ≤ m := hw'.length_le_of_stop
    (no_link_of_ne_alias hx' fun id he => hne' id (Option.some.inj he)) hw
  obtain rfl := Nat.le_antisymm hmn hnm
  obtain rfl := hw.unique hw'
  exact ⟨rfl, Option.some.inj (hx.symm.trans hx')⟩

/-- A walk that reaches a value does not go on. -/
lemma WalkReaches.not_goesOn {holder : Variable} {x : VariableValue}
    (h : l.WalkReaches mode v bound holder x) : ¬ l.WalkGoesOn mode v bound := by
  rintro ⟨u, id, hu, hid⟩
  obtain ⟨n, hn, hw, hx, hne⟩ := h
  have hle : bound ≤ n := hw.length_le_of_stop
    (no_link_of_ne_alias hx fun id he => hne id (Option.some.inj he)) hu
  obtain rfl := Nat.le_antisymm hle hn
  obtain rfl := hw.unique hu
  exact hne id (Option.some.inj (hx.symm.trans hid))

/-- A walk that breaks off does not go on. -/
lemma WalkBreaks.not_goesOn (h : l.WalkBreaks mode v bound) : ¬ l.WalkGoesOn mode v bound := by
  rintro ⟨u, id, hu, hid⟩
  rcases h with ⟨n, hn, w, hw, hnone⟩ | ⟨n, hn, w, id', hw, hid', hunknown⟩
  · have hle : bound ≤ n := hw.length_le_of_stop
      (no_link_of_ne_alias hnone fun _ he => by cases he) hu
    obtain rfl := Nat.le_antisymm hle hn
    obtain rfl := hw.unique hu
    rw [hnone] at hid
    cases hid
  · have hle : bound ≤ n := hw.length_le_of_stop (fun id'' he => by
      rw [hid'] at he
      cases he
      exact hunknown) hu
    exact absurd hn (Nat.not_lt_of_le hle)

/-- A walk that reaches a value does not break off. -/
lemma WalkReaches.not_breaks {holder : Variable} {x : VariableValue}
    (h : l.WalkReaches mode v bound holder x) : ¬ l.WalkBreaks mode v bound := by
  obtain ⟨n, hn, hw, hx, hne⟩ := h
  have hstop := no_link_of_ne_alias hx fun id he => hne id (Option.some.inj he)
  rintro (⟨m, hm, w, hw', hnone⟩ | ⟨m, hm, w, id, hw', hid, hunknown⟩)
  · have hnm : n ≤ m := hw'.length_le_of_stop
      (no_link_of_ne_alias hnone fun _ he => by cases he) hw
    obtain rfl := Nat.le_antisymm hnm (hw.length_le_of_stop hstop hw')
    obtain rfl := hw.unique hw'
    rw [hnone] at hx
    cases hx
  · have hnm : n ≤ m := hw'.length_le_of_stop (fun id' he => by
      rw [hid] at he
      cases he
      exact hunknown) hw
    obtain rfl := Nat.le_antisymm hnm (hw.length_le_of_stop hstop hw')
    obtain rfl := hw.unique hw'
    exact hne id (Option.some.inj (hx.symm.trans hid))

/-! ## The chain has the fate of the walk -/

/-- The fate that the end of a chain stands for. -/
def HasFate (l : Library) (mode : String) (v : Variable) (bound : Nat) : AliasEnd → Prop
  | .value holder x => l.WalkReaches mode v bound holder x
  | .valueless _ | .unknown => l.WalkBreaks mode v bound
  | .circular => l.WalkGoesOn mode v bound

/-- The ids that have been visited are those of variables at which the walk has stood. -/
def Stood (l : Library) (mode : String) (v : Variable) (n : Nat) (visited : List String) : Prop :=
  ∀ id ∈ visited, ∃ m ≤ n, ∃ u, l.Walk mode v m u ∧ l.byId? id = some u

/-- A walk that comes back to a variable at which it has stood comes into a cycle. -/
lemma Stood.cycles {visited : List String} {id : String} (h : l.Stood mode v n visited)
    (hw : l.Walk mode v n w) (hid : l.valueInMode? w mode = some (.aliasOf id))
    (hmem : id ∈ visited) : l.WalkCycles mode v := by
  obtain ⟨m, hm, u, hu, hknown⟩ := h id hmem
  have hback : l.Walk mode v (n + 1) u := hw.link hid hknown
  have hlen : n + 1 = m + (n - m + 1) := by omega
  rw [hlen] at hback
  exact ⟨m, n - m, u, hu, hback.drop hu⟩

/-- The variable that the walk comes to next is one at which it has stood then. -/
lemma Stood.cons {visited : List String} {id : String} {next : Variable}
    (h : l.Stood mode v n visited) (hnext : l.Walk mode v (n + 1) next)
    (hknown : l.byId? id = some next) : l.Stood mode v (n + 1) (id :: visited) := by
  intro id' hid'
  rcases List.mem_cons.mp hid' with rfl | hold
  · exact ⟨n + 1, Nat.le_refl _, next, hnext, hknown⟩
  · obtain ⟨m, hm, u, hu, hu'⟩ := h id' hold
    exact ⟨m, Nat.le_succ_of_le hm, u, hu, hu'⟩

/-- From any place of the walk, the chain ends as the walk does within the links that are left. -/
lemma chainEnd_hasFate (links : Nat) {visited : List String} {id : String}
    (hvisited : l.Stood mode v n visited) (hw : l.Walk mode v n w)
    (hid : l.valueInMode? w mode = some (.aliasOf id)) :
    l.HasFate mode v (n + links) (l.chainEnd mode links visited id) := by
  induction links generalizing n w visited id with
  | zero => exact ⟨w, id, hw, hid⟩
  | succ links ih =>
    unfold chainEnd
    by_cases hmem : id ∈ visited
    · rw [if_pos (List.contains_iff_mem.mpr hmem)]
      exact (hvisited.cycles hw hid hmem).goesOn _
    · rw [if_neg (fun h => hmem (List.contains_iff_mem.mp h))]
      cases hknown : l.byId? id with
      | none =>
        have hbreak : l.WalkBreaks mode v (n + (links + 1)) :=
          Or.inr ⟨n, by omega, w, id, hw, hid, hknown⟩
        exact hbreak
      | some next =>
        have hnext : l.Walk mode v (n + 1) next := hw.link hid hknown
        dsimp only
        cases hx : l.valueInMode? next mode with
        | none =>
          have hbreak : l.WalkBreaks mode v (n + (links + 1)) :=
            Or.inl ⟨n + 1, by omega, next, hnext, hx⟩
          exact hbreak
        | some x =>
          have hreach : (∀ id', x ≠ .aliasOf id') → l.WalkReaches mode v (n + (links + 1)) next x :=
            fun hne => ⟨n + 1, by omega, hnext, hx, hne⟩
          cases x with
          | aliasOf id' =>
            have h := ih (hvisited.cons hnext hknown) hnext hx
            have hlen : n + 1 + links = n + (links + 1) := by omega
            rwa [hlen] at h
          | bool => exact hreach fun _ => nofun
          | number => exact hreach fun _ => nofun
          | text => exact hreach fun _ => nofun
          | color => exact hreach fun _ => nofun

/-- The end of a chain is a value exactly when the walk reaches it. -/
lemma HasFate.value_iff {e : AliasEnd} (h : l.HasFate mode v bound e) {holder : Variable}
    {x : VariableValue} : e = .value holder x ↔ l.WalkReaches mode v bound holder x := by
  constructor
  · rintro rfl
    exact h
  · intro hreach
    cases e with
    | value holder' x' =>
      obtain ⟨rfl, rfl⟩ := hreach.unique h
      rfl
    | valueless holder' => exact absurd h hreach.not_breaks
    | unknown => exact absurd h hreach.not_breaks
    | circular => exact absurd h hreach.not_goesOn

/-- The end of a chain is circular exactly when the walk still goes on. -/
lemma HasFate.circular_iff {e : AliasEnd} (h : l.HasFate mode v bound e) :
    e = .circular ↔ l.WalkGoesOn mode v bound := by
  constructor
  · rintro rfl
    exact h
  · intro hgo
    cases e with
    | value holder' x' => exact absurd hgo (WalkReaches.not_goesOn h)
    | valueless holder' => exact absurd hgo (WalkBreaks.not_goesOn h)
    | unknown => exact absurd hgo (WalkBreaks.not_goesOn h)
    | circular => rfl

/-- Every walk has one of the three fates. -/
lemma HasFate.cases {e : AliasEnd} (h : l.HasFate mode v bound e) :
    (∃ holder x, l.WalkReaches mode v bound holder x) ∨ l.WalkBreaks mode v bound ∨
      l.WalkGoesOn mode v bound := by
  cases e with
  | value holder x => exact Or.inl ⟨holder, x, h⟩
  | valueless holder => exact Or.inr (Or.inl h)
  | unknown => exact Or.inr (Or.inl h)
  | circular => exact Or.inr (Or.inr h)

/-- The variable with the id of a variable of a library is that variable when no two have the same
id. -/
lemma byId?_of_nodup (hids : (l.vars.map Variable.id).Nodup) (hv : v ∈ l.vars) :
    l.byId? v.id = some v :=
  lastWith?_of_nodup hids hv

/-- The collection of a variable is the one with its id when no two have the same id. -/
lemma home?_of_nodup {c : Collection} (hids : (l.collections.map Collection.id).Nodup)
    (hc : c ∈ l.collections) (hmember : v.collectionId = c.id) : l.home? v = some c := by
  unfold home? collection?
  rw [hmember]
  exact lastWith?_of_nodup hids hc

end Library

namespace Scope

open Library

variable {s : Scope} {mode id : String} {v holder : Variable} {depth : Nat}

/-! ## Scopes -/

/-- The chain of an alias ends as the walk does from the variable that has the alias. -/
lemma follow_hasFate (hids : (s.vars.map Variable.id).Nodup) (hv : v ∈ s.vars)
    (hdepth : s.maxDepth = depth) (hid : s.valueInMode? v mode = some (.aliasOf id)) :
    s.HasFate mode v (depth + 1) (s.follow mode id (some v.id)).ending := by
  have hbound : s.linkBound = depth + 1 := by
    unfold linkBound
    omega
  have hvisited : s.Stood mode v 0 (startVisited (some v.id)) := by
    intro id' hmem
    simp only [startVisited] at hmem
    by_cases hempty : v.id = ""
    · rw [if_pos hempty] at hmem
      cases hmem
    · rw [if_neg hempty] at hmem
      obtain rfl := List.mem_singleton.mp hmem
      exact ⟨0, Nat.le_refl 0, v, Walk.start, byId?_of_nodup hids hv⟩
  have hfate := chainEnd_hasFate s.linkBound hvisited Walk.start hid
  rw [Nat.zero_add, hbound] at hfate
  unfold follow
  rw [hbound]
  exact hfate

/-- A chain has a value exactly when its end is one. -/
lemma value_terminal_iff (c : AliasChain) (holder : Variable) (x : VariableValue) :
    c.value? = some x ∧ c.terminal? = some holder ↔ c.ending = .value holder x := by
  unfold AliasChain.value? AliasChain.terminal?
  cases c.ending with
  | value h y =>
    constructor
    · rintro ⟨hx, hh⟩
      rw [Option.some.inj hx, Option.some.inj hh]
    · intro he
      cases he
      exact ⟨rfl, rfl⟩
  | valueless h => exact ⟨fun h => (nomatch h.1), nofun⟩
  | unknown => exact ⟨fun h => (nomatch h.1), nofun⟩
  | circular => exact ⟨fun h => (nomatch h.1), nofun⟩

/-- A chain fails as unresolved exactly when the walk breaks off. -/
lemma failure_unresolved_iff {c : AliasChain} {bound : Nat}
    (h : s.HasFate mode v bound c.ending) :
    c.failure? = some .unresolved ↔ s.WalkBreaks mode v bound := by
  unfold AliasChain.failure?
  revert h
  cases c.ending with
  | value holder x => exact fun h => ⟨nofun, fun hb => absurd hb (WalkReaches.not_breaks h)⟩
  | valueless holder => exact fun h => ⟨fun _ => h, fun _ => rfl⟩
  | unknown => exact fun h => ⟨fun _ => h, fun _ => rfl⟩
  | circular => exact fun h => ⟨nofun, fun hb => absurd h hb.not_goesOn⟩

/-- A chain fails as circular exactly when its end is circular. -/
lemma failure_circular_iff (c : AliasChain) :
    c.failure? = some .circular ↔ c.ending = .circular := by
  unfold AliasChain.failure?
  cases c.ending with
  | circular => exact ⟨fun _ => rfl, fun _ => rfl⟩
  | _ => exact ⟨nofun, nofun⟩

/-- A value is a finite number exactly when it is a number and finite. -/
lemma finiteNumber?_eq_some {value : VariableValue} {x : Float} :
    finiteNumber? value = some x ↔ value = .number x ∧ isFiniteNumber x = true := by
  cases value with
  | number y =>
    simp only [finiteNumber?]
    by_cases hfin : isFiniteNumber y = true
    · rw [if_pos hfin]
      constructor
      · rintro ⟨⟩
        exact ⟨rfl, hfin⟩
      · rintro ⟨⟨⟩, _⟩
        rfl
    · rw [if_neg hfin]
      constructor
      · nofun
      · rintro ⟨⟨⟩, h⟩
        exact absurd h hfin
  | _ => exact ⟨nofun, fun h => nomatch h.1⟩

/-- A variable with a value that is no alias has the number that the value is. -/
lemma numberInMode?_of_plain {value : VariableValue}
    (hvalue : s.valueInMode? v mode = some value) (hne : ∀ id, value ≠ .aliasOf id) :
    s.numberInMode? v mode = finiteNumber? value := by
  unfold numberInMode?
  rw [hvalue]
  cases value with
  | aliasOf id => exact absurd rfl (hne id)
  | _ => rfl

/-- A variable with an alias has the number at the end of its chain. -/
lemma numberInMode?_of_alias (hvalue : s.valueInMode? v mode = some (.aliasOf id)) :
    s.numberInMode? v mode = ((s.follow mode id (some v.id)).value?).bind finiteNumber? := by
  unfold numberInMode?
  rw [hvalue]

/-- A variable has the unit that its description asks for, pixels when it asks for none. -/
lemma unitOf_of_parse {d : Directives} (h : Directives.parse v.description = .ok d) :
    unitOf v = .ok (d.unit.getD .px) := by
  unfold unitOf
  rw [h]
  rfl

/-- A variable has a number exactly when the walk from it reaches that number and it is finite. -/
lemma numberInMode?_eq_some_iff (hids : (s.vars.map Variable.id).Nodup) (hv : v ∈ s.vars)
    (hdepth : s.maxDepth = depth) (x : Float) :
    s.numberInMode? v mode = some x ↔
      (∃ holder, s.WalkReaches mode v (depth + 1) holder (.number x)) ∧
        isFiniteNumber x = true := by
  cases hvalue : s.valueInMode? v mode with
  | none =>
    have hbreak : s.WalkBreaks mode v (depth + 1) :=
      Or.inl ⟨0, Nat.zero_le _, v, Walk.start, hvalue⟩
    have hnone : s.numberInMode? v mode = none := by
      unfold numberInMode?
      rw [hvalue]
    rw [hnone]
    refine ⟨nofun, ?_⟩
    rintro ⟨⟨holder, hreach⟩, _⟩
    exact absurd hbreak hreach.not_breaks
  | some value =>
    by_cases halias : ∃ id, value = .aliasOf id
    · obtain ⟨id, rfl⟩ := halias
      have hfate := follow_hasFate hids hv hdepth hvalue
      rw [numberInMode?_of_alias hvalue, Option.bind_eq_some_iff]
      constructor
      · rintro ⟨y, hy, hx⟩
        obtain ⟨rfl, hfin⟩ := finiteNumber?_eq_some.mp hx
        revert hfate hy
        unfold AliasChain.value?
        cases (s.follow mode id (some v.id)).ending with
        | value holder z =>
          intro hfate hy
          cases hy
          exact ⟨⟨holder, hfate⟩, hfin⟩
        | _ => nofun
      · rintro ⟨⟨holder, hreach⟩, hfin⟩
        have hend := (value_terminal_iff _ holder (.number x)).mpr (hfate.value_iff.mpr hreach)
        exact ⟨.number x, hend.1, finiteNumber?_eq_some.mpr ⟨rfl, hfin⟩⟩
    · have hne : ∀ id, value ≠ .aliasOf id := fun id he => halias ⟨id, he⟩
      have hreaches : s.WalkReaches mode v (depth + 1) v value :=
        ⟨0, Nat.zero_le _, Walk.start, hvalue, hne⟩
      rw [numberInMode?_of_plain hvalue hne, finiteNumber?_eq_some]
      constructor
      · rintro ⟨rfl, hfin⟩
        exact ⟨⟨v, hreaches⟩, hfin⟩
      · rintro ⟨⟨holder, hreach⟩, hfin⟩
        exact ⟨(hreaches.unique hreach).2, hfin⟩

/-- Following an alias agrees with the walk from the variable that has it, on every graph of
aliases: there is a value when the walk reaches one within one link more than the bound, the alias
is unresolved when the walk breaks off within that many links, and it is circular otherwise, as it
is whenever the walk comes into a cycle.  A variable whose description can be read has the finite
number that the walk reaches, or none, with the unit of the description, pixels without one; where
the description cannot be read, its fault takes the place of the number. -/
theorem follow_agrees_with_walk (hids : (s.vars.map Variable.id).Nodup) (hv : v ∈ s.vars)
    (hdepth : s.maxDepth = depth) :
    (∀ id, s.valueInMode? v mode = some (.aliasOf id) →
      (∀ holder x,
        ((s.follow mode id (some v.id)).value? = some x ∧
            (s.follow mode id (some v.id)).terminal? = some holder ↔
          s.WalkReaches mode v (depth + 1) holder x)) ∧
      ((s.follow mode id (some v.id)).failure? = some .unresolved ↔
        s.WalkBreaks mode v (depth + 1)) ∧
      ((s.follow mode id (some v.id)).failure? = some .circular ↔
        ¬ (∃ holder x, s.WalkReaches mode v (depth + 1) holder x) ∧
          ¬ s.WalkBreaks mode v (depth + 1)) ∧
      (s.WalkCycles mode v → (s.follow mode id (some v.id)).failure? = some .circular)) ∧
    (∀ d, Directives.parse v.description = .ok d →
      ∃ number, s.numberWithUnit v mode = .ok (number, d.unit.getD .px) ∧
        ∀ x, number = some x ↔
          (∃ holder, s.WalkReaches mode v (depth + 1) holder (.number x)) ∧
            isFiniteNumber x = true) ∧
    ∀ fault, Directives.parse v.description = .error fault →
      s.numberWithUnit v mode = .error fault := by
  refine ⟨fun id hid => ?_, fun d hd => ⟨_, numberWithUnit_of_unitOf (unitOf_of_parse hd) s mode,
    numberInMode?_eq_some_iff hids hv hdepth⟩, fun fault hfault => ?_⟩
  swap
  · unfold numberWithUnit unitOf
    rw [hfault]
    rfl
  have hfate := follow_hasFate hids hv hdepth hid
  refine ⟨fun holder x => ?_, failure_unresolved_iff hfate, ?_, fun hcycle => ?_⟩
  · rw [value_terminal_iff]
    exact hfate.value_iff
  · rw [failure_circular_iff, hfate.circular_iff]
    constructor
    · intro hgo
      exact ⟨fun ⟨_, _, hreach⟩ => hreach.not_goesOn hgo, fun hbreak => hbreak.not_goesOn hgo⟩
    · rintro ⟨hreach, hbreak⟩
      rcases hfate.cases with h | h | h
      · exact absurd h hreach
      · exact absurd h hbreak
      · exact h
  · rw [failure_circular_iff, hfate.circular_iff]
    exact hcycle.goesOn (depth + 1)

/-- A variable whose value is an alias. -/
def aliasVariable (id target : String) : Variable :=
  { id, name := id, type := .text, values := [("m", .aliasOf target)], collectionId := "" }

/-- A variable with a number and a description. -/
def numberVariable (id description : String) : Variable :=
  { id, name := id, type := .number, values := [("m", .number 8.0)], collectionId := "",
    description }

/-- A chain of two links to a text, beside two variables that are aliases of each other, and two
numbers, one of them with a color format that does not exist. -/
def chainAndLoop : Scope where
  vars := [aliasVariable "a" "b", aliasVariable "b" "c",
    { aliasVariable "c" "" with values := [("m", .text "solid")] },
    aliasVariable "x" "y", aliasVariable "y" "x",
    numberVariable "n" "unit: rem", numberVariable "k" "format: hſl"]
  collections := []

/-- The walk along the chain reaches the text, and the alias in the loop is circular.  A number has
the unit of its description, and there is none where a long s is taken for a small one. -/
theorem follow_agrees_with_walk_chainAndLoop :
    (∃ holder, chainAndLoop.WalkReaches "m" (aliasVariable "a" "b") (10 + 1) holder
      (.text "solid")) ∧
    (chainAndLoop.follow "m" "y" (some "x")).failure? = some .circular ∧
    (∃ number, chainAndLoop.numberWithUnit (numberVariable "n" "unit: rem") "m" =
      .ok (number, .rem) ∧ number = some 8.0) ∧
    chainAndLoop.numberWithUnit (numberVariable "k" "format: hſl") "m" = .error .unknownName := by
  have hids : (chainAndLoop.vars.map Variable.id).Nodup := by decide
  have hchain := @follow_agrees_with_walk chainAndLoop "m" (aliasVariable "a" "b") 10 hids
    (List.mem_cons_self ..) rfl
  have hloop := @follow_agrees_with_walk chainAndLoop "m" (aliasVariable "x" "y") 10 hids
    (by simp [chainAndLoop]) rfl
  have hnumber := @follow_agrees_with_walk chainAndLoop "m" (numberVariable "n" "unit: rem") 10 hids
    (by simp [chainAndLoop]) rfl
  have hfault := @follow_agrees_with_walk chainAndLoop "m" (numberVariable "k" "format: hſl") 10
    hids (by simp [chainAndLoop]) rfl
  have hread : Directives.parse "unit: rem" = .ok { unit := some .rem } := rfl
  have hunread : Directives.parse "format: hſl" = .error .unknownName := rfl
  refine ⟨⟨_, ((hchain.1 "b" rfl).1 _ _).mp ⟨rfl, rfl⟩⟩, (hloop.1 "y" rfl).2.2.2 ?_, ?_,
    hfault.2.2 _ hunread⟩
  · have hcycle : chainAndLoop.Walk "m" (aliasVariable "x" "y") 2 (aliasVariable "x" "y") :=
      have hlink : chainAndLoop.Walk "m" (aliasVariable "x" "y") 1 (aliasVariable "y" "x") :=
        Walk.start.link rfl rfl
      hlink.link rfl rfl
    exact ⟨0, 1, _, Walk.start, hcycle⟩
  · obtain ⟨number, hfound, hvalue⟩ := hnumber.2.1 _ hread
    have hreaches : chainAndLoop.WalkReaches "m" (numberVariable "n" "unit: rem") (10 + 1)
        (numberVariable "n" "unit: rem") (.number 8.0) :=
      ⟨0, Nat.zero_le _, Walk.start, rfl, nofun⟩
    exact ⟨number, hfound, (hvalue 8.0).mpr ⟨⟨_, hreaches⟩, by decide +kernel⟩⟩

end Scope

end DesignTokens
