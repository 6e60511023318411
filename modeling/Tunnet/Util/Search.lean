import Mathlib.Data.Finset.Card

/-!
# Searching a graph in depth

A search looks at entries in turn. An entry is accepted, or it points to a node; a node that was not
visited before is a goal, or its entries are searched. The branches of the search share the nodes
they have visited, so a branch may give up because of another one.

* `search`: the search to a depth; `none` if it would have to go deeper.
* `search_iff`: as deep as there are nodes, the search ends and finds what can be reached.
-/

namespace Tunnet

open List

/-- Entries, the nodes they point to, and the entries of the nodes. -/
structure SearchGraph (α β : Type*) where
  accepts : α → Bool
  node : α → Option β
  goal : β → Bool
  entries : β → Option (List α)

namespace SearchGraph

variable {α β : Type*} (G : SearchGraph α β)

/-- The entry leads to one that is accepted, or to a goal. -/
inductive Reaches : α → Prop
  | accepted {a} : G.node a = none → G.accepts a → Reaches a
  | goal {a b} : G.node a = some b → G.goal b → Reaches a
  | step {a b as next} : G.node a = some b → G.entries b = some as → next ∈ as → Reaches next →
      Reaches a

/-- The entry is not accepted, or its node has been visited. -/
inductive Settled (visited : List β) (a : α) : Prop
  | rejected : G.node a = none → G.accepts a = false → Settled visited a
  | visited {b} : G.node a = some b → b ∈ visited → Settled visited a

/-- What a search has found out, if these nodes were visited before: that something can be reached;
or its entries are settled, and so are those of the nodes it has visited. -/
def Searched (visited : List β) (as : List α) : Bool × List β → Prop
  | (true, _) => ∃ a ∈ as, G.Reaches a
  | (false, visited') => visited ⊆ visited' ∧ (∀ a ∈ as, G.Settled visited' a) ∧
      ∀ b ∈ visited', b ∉ visited →
        G.goal b = false ∧ ∀ as, G.entries b = some as → ∀ a ∈ as, G.Settled visited' a

variable {G} {a : α} {as as' : List α} {b : β} {visited visited' : List β} {r : Bool × List β}

theorem Settled.mem (h : G.Settled visited a) (hnode : G.node a = some b) : b ∈ visited := by
  cases h with
  | rejected hnone => exact nomatch hnone ▸ hnode
  | visited hsome hb => exact Option.some.inj (hsome.symm.trans hnode) ▸ hb

theorem searched_of_settled (h : ∀ a ∈ as, G.Settled visited a) :
    G.Searched visited as (false, visited) :=
  ⟨Subset.refl _, h, fun _ hb hnew => absurd hb hnew⟩

/-- The entries of a node were searched. -/
theorem Searched.node (hnode : G.node a = some b) (hgoal : G.goal b = false)
    (h : G.Searched (b :: visited) ((G.entries b).getD []) r) : G.Searched visited [a] r := by
  rcases r with ⟨_ | _, visited'⟩
  · obtain ⟨hsub, has, hnodes⟩ := h
    refine ⟨fun _ hb => hsub (mem_cons_of_mem _ hb),
      forall_mem_singleton.2 (.visited hnode (hsub mem_cons_self)), fun b' hb' hnew => ?_⟩
    by_cases heq : b' = b
    · subst heq
      refine ⟨hgoal, fun as hentries => ?_⟩
      rw [hentries] at has
      exact has
    · exact hnodes b' hb' (not_mem_cons_of_ne_of_not_mem heq hnew)
  · obtain ⟨next, hnext, hreaches⟩ := h
    cases hentries : G.entries b with
    | none => exact nomatch hentries ▸ hnext
    | some =>
      rw [hentries] at hnext
      exact ⟨a, mem_singleton_self _, .step hnode hentries hnext hreaches⟩

theorem Searched.append (h : G.Searched visited as (false, visited'))
    (h' : G.Searched visited' as' r) : G.Searched visited (as ++ as') r := by
  rcases r with ⟨_ | _, visited''⟩
  · obtain ⟨hsub, has, hnodes⟩ := h
    obtain ⟨hsub', has', hnodes'⟩ := h'
    have hsettled (a) (ha : G.Settled visited' a) : G.Settled visited'' a := by
      cases ha with
      | rejected hnode haccepts => exact .rejected hnode haccepts
      | visited hnode hb => exact .visited hnode (hsub' hb)
    refine ⟨fun _ hb => hsub' (hsub hb), forall_mem_append.2
      ⟨fun a ha => hsettled a (has a ha), has'⟩, fun b hb hnew => ?_⟩
    by_cases hmid : b ∈ visited'
    · obtain ⟨hgoal, hentries⟩ := hnodes b hmid hnew
      exact ⟨hgoal, fun as has a ha => hsettled a (hentries as has a ha)⟩
    · exact hnodes' b hb hmid
  · obtain ⟨a, ha, hreaches⟩ := h'
    exact ⟨a, mem_append_right _ ha, hreaches⟩

/-! ### The search -/

variable [DecidableEq β] (G)

def visit (search : List α → List β → Option (Bool × List β)) (visited : List β) (a : α) :
    Option (Bool × List β) :=
  match G.node a with
  | none => some (G.accepts a, visited)
  | some b =>
    if visited.contains b then some (false, visited)
    else if G.goal b then some (true, b :: visited)
    else match G.entries b with
      | none => some (false, b :: visited)
      | some as => search as (b :: visited)

def search : ℕ → List α → List β → Option (Bool × List β)
  | 0, _, _ => none
  | depth + 1, as, visited => as.foldlM (fun (found, visited) a =>
      if found then some (true, visited) else G.visit (search depth) visited a) (false, visited)

variable {G}

theorem searched_visit {search : List α → List β → Option (Bool × List β)}
    (hsearch : ∀ b as, b ∉ visited → G.entries b = some as →
      ∃ r, search as (b :: visited) = some r ∧ G.Searched (b :: visited) as r) :
    ∃ r, G.visit search visited a = some r ∧ G.Searched visited [a] r := by
  unfold visit
  split
  · rename_i hnode
    refine ⟨_, rfl, ?_⟩
    cases haccepts : G.accepts a with
    | true => exact ⟨a, mem_singleton_self _, .accepted hnode haccepts⟩
    | false => exact searched_of_settled (forall_mem_singleton.2 (.rejected hnode haccepts))
  · rename_i b hnode
    split_ifs with hvisited hgoal
    · rw [contains_iff_mem] at hvisited
      exact ⟨_, rfl, searched_of_settled (forall_mem_singleton.2 (.visited hnode hvisited))⟩
    · exact ⟨_, rfl, a, mem_singleton_self _, .goal hnode hgoal⟩
    · rw [contains_iff_mem] at hvisited
      have hopen : G.goal b = false := Bool.not_eq_true _ ▸ hgoal
      cases hentries : G.entries b with
      | none =>
        refine ⟨_, rfl, .node hnode hopen ?_⟩
        rw [hentries]
        exact searched_of_settled nofun
      | some as =>
        obtain ⟨r, hr, hsearched⟩ := hsearch b as hvisited hentries
        refine ⟨r, hr, .node hnode hopen ?_⟩
        rwa [hentries]

theorem search_cons (depth : ℕ) : G.search (depth + 1) (a :: as) visited =
    (G.visit (G.search depth) visited a).bind fun
      | (true, visited) => some (true, visited)
      | (false, visited) => G.search (depth + 1) as visited := by
  simp only [search, foldlM_cons, Bool.false_eq_true, if_false]
  refine congrArg _ (funext fun r => ?_)
  rcases r with ⟨_ | _, visited'⟩
  · rfl
  · induction as with
    | nil => rfl
    | cons a as ih => exact ih

variable {nodes : Finset β} {depth : ℕ} (hnodes : ∀ b, (G.entries b).isSome → b ∈ nodes)

include hnodes

/-- Every level of the search visits one of the nodes. -/
theorem searched_search (h : (nodes \ visited.toFinset).card < depth) :
    ∃ r, G.search depth as visited = some r ∧ G.Searched visited as r := by
  induction depth generalizing as visited with
  | zero => omega
  | succ depth ih =>
    induction as generalizing visited with
    | nil => exact ⟨_, rfl, searched_of_settled nofun⟩
    | cons a as ihas =>
      have hvisit : ∃ r, G.visit (G.search depth) visited a = some r ∧
          G.Searched visited [a] r := by
        refine searched_visit fun b as hnew hentries => ih ?_
        have hb : b ∈ nodes \ visited.toFinset :=
          Finset.mem_sdiff.2 ⟨hnodes b (hentries ▸ rfl), fun h => hnew (mem_toFinset.1 h)⟩
        rw [toFinset_cons, Finset.sdiff_insert]
        have := Finset.card_erase_lt_of_mem hb
        omega
      obtain ⟨⟨_ | _, visited'⟩, hr, hsearched⟩ := hvisit
      · have hsub : nodes \ visited'.toFinset ⊆ nodes \ visited.toFinset :=
          Finset.sdiff_subset_sdiff subset_rfl fun b hb =>
            mem_toFinset.2 (hsearched.1 (mem_toFinset.1 hb))
        obtain ⟨r, hr', hrest⟩ := ihas ((Finset.card_le_card hsub).trans_lt h)
        refine ⟨r, ?_, hsearched.append hrest⟩
        rw [search_cons, hr]
        exact hr'
      · obtain ⟨next, hnext, hreaches⟩ := hsearched
        refine ⟨(true, visited'), ?_, next, mem_append_left as hnext, hreaches⟩
        rw [search_cons, hr]
        rfl

/-- The search ends, and it finds what can be reached. -/
theorem search_iff (h : nodes.card < depth) :
    ∃ r, G.search depth as [] = some r ∧ (r.1 ↔ ∃ a ∈ as, G.Reaches a) := by
  obtain ⟨⟨_ | _, visited⟩, hr, hsearched⟩ : ∃ r, G.search depth as [] = some r ∧
      G.Searched [] as r :=
    searched_search hnodes ((Finset.card_le_card Finset.sdiff_subset).trans_lt h)
  · obtain ⟨-, has, hvisited⟩ := hsearched
    refine ⟨_, hr, nofun, fun ⟨a, ha, hreaches⟩ => ?_⟩
    -- The entries of the visited nodes are settled, so no path leaves them.
    have hsettled := has a ha
    clear has ha
    induction hreaches with
    | accepted hnode haccepts =>
      cases hsettled with
      | rejected _ hnot => exact nomatch hnot ▸ haccepts
      | visited hsome => exact nomatch hnode ▸ hsome
    | goal hnode hgoal =>
      rw [(hvisited _ (hsettled.mem hnode) not_mem_nil).1] at hgoal
      cases hgoal
    | step hnode hentries hnext _ ih =>
      exact ih ((hvisited _ (hsettled.mem hnode) not_mem_nil).2 _ hentries _ hnext)
  · exact ⟨_, hr, fun _ => hsearched, fun _ => rfl⟩

end SearchGraph

end Tunnet
