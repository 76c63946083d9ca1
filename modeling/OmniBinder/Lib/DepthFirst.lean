/-
Module: OmniBinder.Lib.DepthFirst
Purpose: Depth-first search of a graph given by its successors, with a bound on the depth and one on the
  number of calls, that lists the nodes after their successors and stops at a cycle.
Trusted boundary: none
Main exports: DepthFirst.Mark, DepthFirst.search_cycle
-/
import Mathlib.Logic.Relation
import OmniBinder.Lib.Table

namespace DepthFirst

open List

/-- A node that is not marked has not been reached. -/
inductive Mark where
  | active
  | finished
deriving DecidableEq, Repr

inductive Failure (κ : Type) where
  | tooDeep
  | tooLong
  | cycle (node : κ)
deriving DecidableEq, Repr

/-- The marks, the finished nodes in the order in which they were finished, and the number of calls. -/
structure Search (κ : Type) [Ord κ] where
  marks : Table κ Mark
  order : List κ
  calls : Nat

variable {κ : Type} [Ord κ] {maxCalls depth calls : Nat} {successors : κ → List κ} {s middle s' : Search κ}
  {node next first second found : κ} {nodes order added : List κ}

/-- One after the other, until one fails. -/
def visitEach (visit : κ → Search κ → Except (Failure κ) (Search κ)) :
    List κ → Search κ → Except (Failure κ) (Search κ)
  | [], s => .ok s
  | node :: nodes, s =>
    match visit node s with
    | .error failure => .error failure
    | .ok s => visitEach visit nodes s

/-- Visit one node with some depth left. -/
def visit (maxCalls : Nat) (successors : κ → List κ) :
    Nat → κ → Search κ → Except (Failure κ) (Search κ)
  | 0, _, _ => .error .tooDeep
  | depth + 1, node, s =>
    if s.calls + 1 > maxCalls then .error .tooLong
    else
      let s := { s with calls := s.calls + 1 }
      match (s.marks[node]? : Option Mark) with
      | some .finished => .ok s
      | some .active => .error (.cycle node)
      | none =>
        match visitEach (visit maxCalls successors depth) (successors node)
            { s with marks := s.marks.insert node .active } with
        | .error failure => .error failure
        | .ok s =>
          .ok { s with marks := s.marks.insert node .finished, order := s.order ++ [node] }

/-! ### What holds of a search that comes to its end -/

/-- The node has been visited to its end. -/
def Search.Finished (s : Search κ) (node : κ) : Prop :=
  (s.marks[node]? : Option Mark) = some .finished

/-- The node is being visited. -/
def Search.Active (s : Search κ) (node : κ) : Prop :=
  (s.marks[node]? : Option Mark) = some .active

/-- The search while the successors of a node are visited. -/
def Search.enter (s : Search κ) (node : κ) : Search κ :=
  { s with marks := s.marks.insert node .active }

/-- The search after the successors of a node have been visited. -/
def Search.leave (s : Search κ) (node : κ) : Search κ :=
  { s with marks := s.marks.insert node .finished, order := s.order ++ [node] }

/-- What is to be shown for a relation between the search before some visits, the search after them and
    the visited nodes. -/
structure Rule (successors : κ → List κ) (R : Search κ → Search κ → List κ → Prop) : Prop where
  count : ∀ {s s' calls nodes}, R { s with calls } s' nodes → R s s' nodes
  nil : ∀ s, R s s []
  cons : ∀ {s middle s' node nodes}, R s middle [node] → R middle s' nodes → R s s' (node :: nodes)
  again : ∀ {s node}, s.Finished node → R s s [node]
  visited : ∀ {s middle node}, (s.marks[node]? : Option Mark) = none →
    R (s.enter node) middle (successors node) → R s (middle.leave node) [node]

section
variable {R : Search κ → Search κ → List κ → Prop}

theorem Rule.visitEach (hR : Rule successors R) {visit : κ → Search κ → Except (Failure κ) (Search κ)}
    (hvisit : ∀ {node : κ} {s s' : Search κ}, visit node s = .ok s' → R s s' [node]) :
    ∀ {nodes : List κ} {s s' : Search κ}, visitEach visit nodes s = .ok s' → R s s' nodes := by
  intro nodes
  induction nodes with
  | nil =>
    intro s s' h
    cases h
    exact hR.nil s
  | cons node nodes ih =>
    intro s s' h
    rw [DepthFirst.visitEach] at h
    split at h
    · cases h
    · next middle hfirst => exact hR.cons (hvisit hfirst) (ih h)

theorem Rule.visit (hR : Rule successors R) : ∀ {depth : Nat} {node : κ} {s s' : Search κ},
      visit maxCalls successors depth node s = .ok s' → R s s' [node] := by
  intro depth
  induction depth with
  | zero =>
    intro node s s' h
    cases h
  | succ depth ih =>
    intro node s s' h
    rw [DepthFirst.visit] at h
    split_ifs at h with hcalls
    dsimp only at h
    split at h
    · next hfinished =>
        cases h
        exact hR.count (hR.again hfinished)
    · cases h
    · next hfresh =>
        split at h
        · cases h
        next middle hmiddle =>
          cases h
          have hvisited : R { s with calls := s.calls + 1 } (middle.leave node) [node] :=
            hR.visited hfresh (hR.visitEach ih hmiddle)
          exact hR.count hvisited

/-- Visits that come to their end. -/
theorem Rule.search (hR : Rule successors R)
    (h : DepthFirst.visitEach (DepthFirst.visit maxCalls successors depth) nodes s = .ok s') :
    R s s' nodes :=
  hR.visitEach hR.visit h

end

/-! ### Marks and the list -/

section

variable [Std.TransOrd κ] [Std.LawfulEqOrd κ] [DecidableEq κ]

/-- Entering a node finishes none, and takes none away that was finished. -/
theorem Search.finished_enter (hfresh : (s.marks[node]? : Option Mark) = none) (n : κ) :
    (s.enter node).Finished n ↔ s.Finished n := by
  simp only [Search.Finished, Search.enter, Table.getElem?_insert]
  by_cases hn : node = n
  · subst hn
    simp [hfresh]
  · rw [if_neg hn]

theorem Search.finished_leave (s : Search κ) (node n : κ) :
    (s.leave node).Finished n ↔ node = n ∨ s.Finished n := by
  simp only [Search.Finished, Search.leave, Table.getElem?_insert]
  by_cases hn : node = n
  · simp [hn]
  · simp [hn]

theorem Search.active_enter (s : Search κ) (node n : κ) :
    (s.enter node).Active n ↔ node = n ∨ s.Active n := by
  simp only [Search.Active, Search.enter, Table.getElem?_insert]
  by_cases hn : node = n
  · simp [hn]
  · simp [hn]

theorem Search.active_leave (s : Search κ) (node n : κ) :
    (s.leave node).Active n ↔ node ≠ n ∧ s.Active n := by
  simp only [Search.Active, Search.leave, Table.getElem?_insert]
  by_cases hn : node = n
  · simp [hn]
  · simp [hn]

/-- Completed visits leave the nodes being visited as they were. -/
theorem rule_active (successors : κ → List κ) :
    Rule successors fun s s' _ => ∀ n, s'.Active n ↔ s.Active n where
  count h := h
  nil _ _ := Iff.rfl
  cons hone hrest n := (hrest n).trans (hone n)
  again _ _ := Iff.rfl
  visited {s middle node} hfresh h n := by
    rw [Search.active_leave, h n, Search.active_enter]
    constructor
    · rintro ⟨hne, rfl | hactive⟩
      · exact absurd rfl hne
      · exact hactive
    · intro hactive
      refine ⟨?_, .inr hactive⟩
      rintro rfl
      exact Option.some_ne_none _ (hactive.symm.trans hfresh)

/-! ### The order of the list -/

/-- From one node to one of its successors. -/
def Edge (successors : κ → List κ) (node next : κ) : Prop := next ∈ successors node

/-- From a node along any number of edges. -/
abbrev Reaches (successors : κ → List κ) : κ → κ → Prop := Relation.ReflTransGen (Edge successors)

/-- Every node of the list has all its successors before it. -/
def AfterSuccessors (successors : κ → List κ) (order : List κ) : Prop :=
  ∀ before node after, order = before ++ node :: after → ∀ next ∈ successors node, next ∈ before

/-- The finished nodes are listed once each, after their successors. -/
structure Sound (successors : κ → List κ) (s : Search κ) : Prop where
  nodup : s.order.Nodup
  listed : ∀ node, node ∈ s.order ↔ s.Finished node
  after : AfterSuccessors successors s.order

/-- The list comes to the first node before it comes to the second, or without coming to it. -/
def Leads (order : List κ) (first second : κ) : Prop :=
  ∃ before after, order = before ++ after ∧ first ∈ before ∧ second ∉ before

/-- Searching the nodes of a list in turn, the first node is met to its end before the second: the first
    node of the list that reaches either of them reaches the first only, or is the second and reaches the
    first, or reaches both and meets the first before the second among its successors. -/
inductive MetBefore (successors : κ → List κ) (first second : κ) : List κ → Prop
  | only {node : κ} {nodes : List κ} : Reaches successors node first →
      ¬ Reaches successors node second → MetBefore successors first second (node :: nodes)
  | later {node : κ} {nodes : List κ} : ¬ Reaches successors node first →
      ¬ Reaches successors node second → MetBefore successors first second nodes →
      MetBefore successors first second (node :: nodes)
  | itself {nodes : List κ} : Reaches successors second first →
      MetBefore successors first second (second :: nodes)
  | inside {node : κ} {nodes : List κ} : node ≠ second → Reaches successors node second →
      MetBefore successors first second (successors node) →
      MetBefore successors first second (node :: nodes)

section
omit [Ord κ] [Std.TransOrd κ] [Std.LawfulEqOrd κ] [DecidableEq κ]

theorem metBefore_cons_of_not (h : ¬ Reaches successors node second) :
    MetBefore successors first second (node :: nodes) ↔
      Reaches successors node first ∨ MetBefore successors first second nodes := by
  constructor
  · rintro (⟨hto, _⟩ | ⟨_, _, hlater⟩ | _ | ⟨_, hto, _⟩)
    · exact .inl hto
    · exact .inr hlater
    · exact absurd .refl h
    · exact absurd hto h
  · intro hmet
    by_cases hto : Reaches successors node first
    · exact .only hto h
    · exact .later hto h (hmet.resolve_left hto)

theorem metBefore_cons_of_reaches (h : Reaches successors node second) :
    MetBefore successors first second (node :: nodes) ↔
      (node = second ∧ Reaches successors second first) ∨
        (node ≠ second ∧ MetBefore successors first second (successors node)) := by
  constructor
  · rintro (⟨_, hnot⟩ | ⟨_, hnot, _⟩ | hto | ⟨hother, _, hin⟩)
    · exact absurd h hnot
    · exact absurd h hnot
    · exact .inl ⟨rfl, hto⟩
    · exact .inr ⟨hother, hin⟩
  · rintro (⟨rfl, hto⟩ | ⟨hother, hin⟩)
    · exact .itself hto
    · exact .inside hother h hin

section
variable (h : AfterSuccessors successors order)
include h

/-- What a listed node reaches is listed, and before the node if it is another one. -/
theorem AfterSuccessors.reaches {before after : List κ} (horder : order = before ++ node :: after)
    (hreaches : Relation.TransGen (Edge successors) node next) : next ∈ before := by
  induction hreaches with
  | single hedge => exact h _ _ _ horder _ hedge
  | @tail middle _ _ hedge ih =>
    obtain ⟨before', after', hbefore⟩ := append_of_mem ih
    have hsplit : order = before' ++ middle :: (after' ++ node :: after) := by
      rw [horder, hbefore, append_assoc, cons_append]
    rw [hbefore]
    exact mem_append_left _ (h _ _ _ hsplit _ hedge)

theorem AfterSuccessors.mem_of_reaches (hnode : node ∈ order) (hreaches : Reaches successors node next) : next ∈ order := by
  rcases Relation.reflTransGen_iff_eq_or_transGen.mp hreaches with rfl | hreaches
  · exact hnode
  · obtain ⟨before, after, horder⟩ := append_of_mem hnode
    rw [horder]
    exact mem_append_left _ (h.reaches horder hreaches)

/-- No listed node lies on a cycle. -/
theorem AfterSuccessors.acyclic (hnodup : order.Nodup) (hnode : node ∈ order) : ¬ Relation.TransGen (Edge successors) node node := by
  intro hcycle
  obtain ⟨before, after, horder⟩ := append_of_mem hnode
  have hbefore := h.reaches horder hcycle
  rw [horder] at hnodup
  exact (nodup_append.mp hnodup).2.2 node hbefore node mem_cons_self rfl

/-- A node can be listed once its successors are. -/
theorem AfterSuccessors.concat (hnode : ∀ next ∈ successors node, next ∈ order) : AfterSuccessors successors (order ++ [node]) := by
  intro before n after horder next hnext
  rcases eq_nil_or_concat after with rfl | ⟨after, last, rfl⟩
  · obtain ⟨rfl, hlast⟩ := append_inj' horder rfl
    cases hlast
    exact hnode next hnext
  · have hsplit : order ++ [node] = (before ++ n :: after) ++ [last] := by simpa using horder
    obtain ⟨rfl, -⟩ := append_inj' hsplit rfl
    exact h before n after rfl next hnext

end

variable (successors) in
theorem reaches_iff (node next : κ) : Reaches successors node next ↔
      node = next ∨ ∃ middle ∈ successors node, Reaches successors middle next := by
  constructor
  · intro h
    rcases Relation.ReflTransGen.cases_head h with rfl | ⟨middle, hedge, hrest⟩
    · exact .inl rfl
    · exact .inr ⟨middle, hedge, hrest⟩
  · rintro (rfl | ⟨middle, hedge, hrest⟩)
    · exact .refl
    · exact .head hedge hrest

/-! Which of two nodes leads is settled by the first part of the list that has one of them. -/

theorem Leads.mem (h : Leads order first second) : first ∈ order := by
  obtain ⟨before, after, rfl, hfirst, _⟩ := h
  exact mem_append_left _ hfirst

theorem Leads.append (h : Leads order first second) (added : List κ) :
    Leads (order ++ added) first second := by
  obtain ⟨before, after, rfl, hfirst, hsecond⟩ := h
  exact ⟨before, after ++ added, append_assoc _ _ _, hfirst, hsecond⟩

theorem leads_append_of_mem (h : second ∈ order) :
    Leads (order ++ added) first second ↔ Leads order first second := by
  refine ⟨?_, fun h => h.append added⟩
  rintro ⟨before, after, hsplit, hfirst, hsecond⟩
  rcases append_eq_append_iff.mp hsplit with ⟨rest, hbefore, _⟩ | ⟨rest, horder, _⟩
  · rw [hbefore] at hsecond
    exact absurd (mem_append_left _ h) hsecond
  · exact ⟨before, rest, horder, hfirst, hsecond⟩

theorem leads_concat_self (h : second ∉ order) :
    Leads (order ++ [second]) first second ↔ first ∈ order := by
  refine ⟨?_, fun hfirst => Leads.append ⟨order, [], by simp, hfirst, h⟩ _⟩
  rintro ⟨before, after, hsplit, hfirst, hsecond⟩
  rcases eq_nil_or_concat after with rfl | ⟨after, last, rfl⟩
  · rw [append_nil] at hsplit
    exact absurd (hsplit ▸ mem_append_right _ (mem_singleton_self _)) hsecond
  · rw [concat_eq_append, ← append_assoc] at hsplit
    obtain ⟨rfl, -⟩ := append_inj' hsplit rfl
    exact mem_append_left _ hfirst

theorem leads_of_notMem (h : second ∉ order) : Leads order first second ↔ first ∈ order :=
  ⟨Leads.mem, fun hfirst => ⟨order, [], (append_nil _).symm, hfirst, h⟩⟩

end

/-- What completed visits add to the list: what the nodes reach, in the order in which it is met. -/
structure Lists (successors : κ → List κ) (s s' : Search κ) (nodes : List κ) : Prop where
  sound : Sound successors s'
  grows : ∃ added, s'.order = s.order ++ added
  mem : ∀ n, n ∈ s'.order ↔ n ∈ s.order ∨ ∃ node ∈ nodes, Reaches successors node n
  leads : ∀ {first second}, first ≠ second → first ∉ s.order → second ∉ s.order →
    (Leads s'.order first second ↔ MetBefore successors first second nodes)

section
omit [Std.TransOrd κ] [Std.LawfulEqOrd κ] [DecidableEq κ]

theorem Lists.nil (h : Sound successors s) : Lists successors s s [] where
  sound := h
  grows := ⟨[], (append_nil _).symm⟩
  mem := by simp
  leads _ hfirst _ := ⟨fun hleads => absurd hleads.mem hfirst, nofun⟩

theorem Lists.cons (hone : Lists successors s middle [node]) (hrest : Lists successors middle s' nodes) :
    Lists successors s s' (node :: nodes) where
  sound := hrest.sound
  grows := by
    obtain ⟨added, hadded⟩ := hone.grows
    obtain ⟨added', hadded'⟩ := hrest.grows
    exact ⟨added ++ added', by rw [hadded', hadded, append_assoc]⟩
  mem n := by
    rw [hrest.mem, hone.mem]
    simp [or_assoc]
  leads {first second} hne hfirst hsecond := by
    have hmem (n : κ) (hn : n ∉ s.order) : n ∈ middle.order ↔ Reaches successors node n := by
      simp [hone.mem, hn]
    obtain ⟨added, hadded⟩ := hrest.grows
    -- the first node decides if it reaches either of the two
    by_cases hsecond' : second ∈ middle.order
    · have hreaches := (hmem second hsecond).mp hsecond'
      rw [hadded, leads_append_of_mem hsecond', hone.leads hne hfirst hsecond,
        metBefore_cons_of_reaches hreaches, metBefore_cons_of_reaches hreaches]
    · rw [metBefore_cons_of_not ((hmem second hsecond).not.mp hsecond'), ← hmem first hfirst]
      by_cases hfirst' : first ∈ middle.order
      · refine iff_of_true ?_ (.inl hfirst')
        rw [hadded]
        exact Leads.append ((leads_of_notMem hsecond').mpr hfirst') added
      · rw [hrest.leads hne hfirst' hsecond', or_iff_right hfirst']

/-- A finished node reaches finished nodes only. -/
theorem Lists.again (h : Sound successors s) (hfinished : s.Finished node) :
    Lists successors s s [node] where
  sound := h
  grows := ⟨[], (append_nil _).symm⟩
  mem n := by
    simpa using fun hreaches => h.after.mem_of_reaches ((h.listed node).mpr hfinished) hreaches
  leads {first second} _ hfirst hsecond := by
    have hto {n : κ} : Reaches successors node n → n ∈ s.order :=
      h.after.mem_of_reaches ((h.listed node).mpr hfinished)
    rw [metBefore_cons_of_not (hsecond ∘ hto), or_iff_left nofun]
    exact iff_of_false (hfirst ∘ Leads.mem) (hfirst ∘ hto)

end

/-- A node is listed after what its successors reach. -/
theorem Lists.visited (hactive : middle.Active node)
    (h : Lists successors (s.enter node) middle (successors node)) :
    Lists successors s (middle.leave node) [node] := by
  have hnode : node ∉ middle.order := by
    intro hmem
    have hfinished := (h.sound.listed node).mp hmem
    cases hactive.symm.trans hfinished
  have hbelow : ∀ n, n ∈ middle.order ↔
      n ∈ s.order ∨ ∃ next ∈ successors node, Reaches successors next n := h.mem
  refine ⟨⟨?_, fun n => ?_, ?_⟩, ?_, fun n => ?_, fun {first second} hne hfirst hsecond => ?_⟩
  · refine nodup_append.mpr ⟨h.sound.nodup, by simp, ?_⟩
    rintro n hn other hother rfl
    exact hnode (mem_singleton.mp hother ▸ hn)
  · rw [Search.finished_leave, ← h.sound.listed]
    simp [Search.leave, or_comm, eq_comm]
  · exact h.sound.after.concat fun next hnext => (hbelow next).mpr (.inr ⟨next, hnext, .refl⟩)
  · obtain ⟨added, hadded⟩ := h.grows
    refine ⟨added ++ [node], ?_⟩
    rw [← append_assoc]
    exact congrArg (· ++ [node]) hadded
  · have horder : n ∈ (middle.leave node).order ↔ n ∈ middle.order ∨ n = node := by
      simp [Search.leave]
    rw [horder, hbelow]
    simp only [mem_singleton, exists_eq_left, reaches_iff successors node]
    rw [or_assoc, or_comm (b := n = node), eq_comm]
  · have hreaches (n : κ) (hn : n ∉ s.order) (hother : node ≠ n) :
        n ∈ middle.order ↔ Reaches successors node n := by
      rw [hbelow, reaches_iff]
      simp [hn, hother]
    change Leads (middle.order ++ [node]) first second ↔ _
    by_cases hsame : node = second
    · -- what leads the node itself is below it
      subst hsame
      rw [leads_concat_self hnode, hreaches first hfirst hne.symm, metBefore_cons_of_reaches .refl]
      simp
    · by_cases hbefore : second ∈ middle.order
      · -- both are below the node, or the first is not reached before the second
        have hto := (hreaches second hsecond hsame).mp hbefore
        rw [leads_append_of_mem hbefore, h.leads hne hfirst hsecond, metBefore_cons_of_reaches hto]
        simp [hsame]
      · have hnot : ¬ Reaches successors node second := fun hto =>
          hbefore ((hreaches second hsecond hsame).mpr hto)
        have hlast : second ∉ middle.order ++ [node] := by
          simp [hbefore, Ne.symm hsame]
        have hmem : first ∈ middle.order ++ [node] ↔ Reaches successors node first := by
          rw [mem_append, hbelow, reaches_iff]
          simp [hfirst, or_comm, eq_comm]
        rw [leads_of_notMem hlast, hmem, metBefore_cons_of_not hnot, or_iff_left nofun]

theorem rule_lists (successors : κ → List κ) : Rule successors fun s s' nodes =>
    (∀ n, s'.Active n ↔ s.Active n) ∧ (Sound successors s → Lists successors s s' nodes) where
  count h := ⟨h.1, fun hs =>
    have hl := h.2 ⟨hs.nodup, hs.listed, hs.after⟩
    ⟨hl.sound, hl.grows, hl.mem, hl.leads⟩⟩
  nil _ := ⟨fun _ => Iff.rfl, Lists.nil⟩
  cons hone hrest :=
    ⟨fun n => (hrest.1 n).trans (hone.1 n), fun hs =>
      have hmiddle := hone.2 hs
      hmiddle.cons (hrest.2 hmiddle.sound)⟩
  again h := ⟨fun _ => Iff.rfl, fun hs => Lists.again hs h⟩
  visited {s middle node} hfresh h := by
    refine ⟨(rule_active successors).visited hfresh h.1, fun hs => ?_⟩
    have hactive : middle.Active node := (h.1 node).mpr ((s.active_enter node node).mpr (.inl rfl))
    refine Lists.visited hactive (h.2 ⟨hs.nodup, fun n => ?_, hs.after⟩)
    rw [Search.finished_enter hfresh, ← hs.listed]
    rfl

/-- A search from nothing that comes to its end lists what can be reached. -/
theorem search_lists
    (h : visitEach (visit maxCalls successors depth) nodes ⟨∅, [], calls⟩ = .ok s) :
    Lists successors ⟨∅, [], calls⟩ s nodes := by
  refine ((rule_lists successors).search h).2 ⟨nodup_nil, by simp [Search.Finished], ?_⟩
  intro before n after horder
  simp at horder

/-! ### A search that stops at a cycle -/

/-- Every node being visited leads to the given one. -/
def Search.PathTo (successors : κ → List κ) (s : Search κ) (node : κ) : Prop :=
  ∀ n, s.Active n → Relation.TransGen (Edge successors) n node

omit [Std.TransOrd κ] [Std.LawfulEqOrd κ] [DecidableEq κ] in
theorem visitEach_cycle {visit : κ → Search κ → Except (Failure κ) (Search κ)}
    (hkeeps : ∀ {node : κ} {s s' : Search κ}, visit node s = .ok s' → ∀ n, s'.Active n ↔ s.Active n)
    (hvisit : ∀ {node : κ} {s : Search κ}, s.PathTo successors node →
      visit node s = .error (.cycle found) → Relation.TransGen (Edge successors) found found) :
    ∀ {nodes : List κ} {s : Search κ}, (∀ node ∈ nodes, s.PathTo successors node) →
      visitEach visit nodes s = .error (.cycle found) →
        Relation.TransGen (Edge successors) found found := by
  intro nodes
  induction nodes with
  | nil =>
    intro s _ h
    cases h
  | cons node nodes ih =>
    intro s hpath h
    rw [visitEach] at h
    split at h
    · next failure hfirst =>
        cases h
        exact hvisit (hpath node mem_cons_self) hfirst
    · next middle hfirst =>
        refine ih (fun next hnext n hn => ?_) h
        exact hpath next (mem_cons_of_mem _ hnext) n ((hkeeps hfirst n).mp hn)

/-- The node at which a visit stops lies on a cycle. -/
theorem visit_cycle : ∀ {depth : Nat} {node : κ} {s : Search κ},
    s.PathTo successors node → visit maxCalls successors depth node s = .error (.cycle found) →
      Relation.TransGen (Edge successors) found found := by
  intro depth
  induction depth with
  | zero =>
    intro node s _ h
    cases h
  | succ depth ih =>
    intro node s hpath h
    rw [visit] at h
    split_ifs at h with hcalls
    · cases h
    dsimp only at h
    split at h
    · cases h
    · next hactive =>
        cases h
        exact hpath _ hactive
    · next hfresh =>
        split at h
        · next failure hsuccessors =>
            cases h
            refine visitEach_cycle (rule_active successors).visit ih (fun next hnext n hn => ?_)
              hsuccessors
            rcases (s.active_enter node n).mp hn with rfl | hn
            · exact .single hnext
            · exact (hpath n hn).tail hnext
        · cases h

theorem search_cycle
    (h : visitEach (visit maxCalls successors depth) nodes ⟨∅, [], calls⟩ = .error (.cycle found)) :
    Relation.TransGen (Edge successors) found found := by
  refine visitEach_cycle (rule_active successors).visit visit_cycle (fun _ _ n hn => ?_) h
  simp [Search.Active] at hn

end

end DepthFirst
