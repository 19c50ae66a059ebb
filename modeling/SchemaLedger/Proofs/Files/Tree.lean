import Mathlib.Tactic.SplitIfs
import SchemaLedger.Files.Tree

/-! Routes lead to directories through directories and links, whatever becomes of the files. -/

namespace SchemaLedger.FileTree

variable {tree other : FileTree} {location reached : Location} {name : RawText} {node : FileNode}
  {links : Nat} {names : List RawText}

/-- A name is directly below a location if its node is kept one name further. -/
theorem mem_children : (name, node) ∈ tree.children location ↔
    (location ++ [name], node) ∈ tree.nodes := by
  simp only [children, List.mem_filterMap, Prod.exists]
  constructor
  · rintro ⟨below, found, member, given⟩
    cases ends : below.getLast? with
    | none =>
      -- The root is below nothing.
      simp [ends] at given
    | some last =>
      -- A child is below its place by one name, which is the last.
      obtain ⟨front, rfl⟩ := List.getLast?_eq_some_iff.mp ends
      simp at given
      obtain ⟨rfl, rfl, rfl⟩ := given
      exact member
  · intro member
    exact ⟨_, _, member, by simp⟩

/-- What is found at a place that a path can spell is kept there. -/
theorem mem_nodes_of_node? (outside : location ≠ [] ∧ location ≠ workingDirectory)
    (found : tree.node? location = some node) : (location, node) ∈ tree.nodes := by
  -- Outside the two places that are always there a node is found in the list.
  rw [node?, if_neg (by simpa using outside)] at found
  obtain ⟨⟨place, kept⟩, first, rfl⟩ := Option.map_eq_some_iff.mp found
  have same := List.find?_some first
  simp only [beq_iff_eq] at same
  exact same ▸ List.mem_of_find?_eq_some first

/-- A node that is set is found in its place. -/
theorem node?_set_self (outside : location ≠ [] ∧ location ≠ workingDirectory) :
    (tree.set location node).node? location = some node := by
  -- The node has been put in front, where it is found first.
  rw [node?, if_neg (by simpa using outside)]
  simp [set]

/-- Everywhere else the tree remains as it is. -/
theorem node?_set_of_ne {place : Location} (elsewhere : place ≠ location) :
    (tree.set location node).node? place = tree.node? place := by
  have apart : (location == place) = false := by simpa using elsewhere.symm
  -- What is removed in favour of the new node has been at its location, and not at this place.
  have spared : ((tree.remove location).nodes.find? (·.1 == place)) =
      tree.nodes.find? (·.1 == place) := by
    rw [remove, List.find?_filter]
    congr 1
    funext entry
    by_cases same : entry.1 = place
    · simp [same, elsewhere]
    · simp [same]
  simp only [node?, set, List.find?_cons, apart, spared]

/-- A file that is set is listed with the others. -/
theorem mem_children_set {entry : RawText × FileNode} :
    entry ∈ (tree.set (location ++ [name]) node).children location ↔
      entry = (name, node) ∨ entry ∈ tree.children location ∧ entry.1 ≠ name := by
  -- The old node of this name is taken out before the new one is put in.
  obtain ⟨other, found⟩ := entry
  simp [mem_children, set, remove]

/-- A name leads from a directory to something in it, if there is something of that name. -/
structure Proper (name : RawText) : Prop where
  leaving : name ≠ Route.here
  descending : name ≠ Route.above
  short : ¬ Route.maxNameBytes < name.byteSize

/-- Names lead through directories and links from one directory to another, and so many of the
links that may be followed remain. -/
inductive Leads (tree : FileTree) : Nat → Location → List RawText → Nat → Location → Prop
  | arrived (links : Nat) (location : Location) : Leads tree links location [] links location
  | stay {links fewer : Nat} {location reached : Location} {rest : List RawText}
    (onward : Leads tree links location rest fewer reached) :
    Leads tree links location (Route.here :: rest) fewer reached
  | leave {links fewer : Nat} {location reached : Location} {rest : List RawText}
    (onward : Leads tree links location.dropLast rest fewer reached) :
    Leads tree links location (Route.above :: rest) fewer reached
  | enter {links fewer : Nat} {location reached : Location} {name : RawText} {rest : List RawText}
    (proper : Proper name) (there : tree.node? (location ++ [name]) = some .directory)
    (onward : Leads tree links (location ++ [name]) rest fewer reached) :
    Leads tree links location (name :: rest) fewer reached
  -- The names of the target come before those that are left.
  | follow {links fewer : Nat} {location reached : Location} {name : RawText} {rest : List RawText}
    {target : String} (proper : Proper name)
    (there : tree.node? (location ++ [name]) = some (.link target))
    (onward : Leads tree links (if (Route.ofText target).fromRoot then [] else location)
      ((Route.ofText target).names ++ rest) fewer reached) :
    Leads tree (links + 1) location (name :: rest) fewer reached

/-- Names that are walked along to a directory lead there. -/
theorem leads_of_walk {directed : Bool} (directory : directed = true)
    (found : tree.walk false links location names directed = .ok reached) :
    ∃ fewer, Leads tree links location names fewer reached := by
  -- Of the ways on which a walk goes on, each is one of those on which names lead.
  fun_induction FileTree.walk tree false links location names directed with
  | case1 links location =>
    cases found
    exact ⟨links, .arrived _ _⟩
  | case2 links location _ rest ih =>
    obtain ⟨fewer, onward⟩ := ih directory found
    exact ⟨fewer, .stay onward⟩
  | case3 links location _ rest _ ih =>
    obtain ⟨fewer, onward⟩ := ih directory found
    exact ⟨fewer, .leave onward⟩
  | case8 links location _ name rest leaving descending _ short place there ih =>
    obtain ⟨fewer, onward⟩ := ih directory found
    exact ⟨fewer, .enter ⟨leaving, descending, short⟩ there onward⟩
  | case12 location _ name rest leaving descending _ short place target there links route ih =>
    -- A target is on the way to a directory, just as the link is.
    obtain ⟨fewer, onward⟩ := ih (by simp [directory]) found
    exact ⟨fewer, .follow ⟨leaving, descending, short⟩ there (by simpa using onward)⟩
  | _ =>
    -- All other ways end with a refusal, or with a file.
    simp_all

namespace Proper

variable {toCreate toDirectory : Bool} {rest : List RawText}

/-- Where there is nothing of a name, it can only be that of something to be created. -/
theorem walk_missing (proper : Proper name) (possible : ¬ (toCreate ∧ toDirectory ∧ rest = []))
    (absent : tree.node? (location ++ [name]) = none) :
    tree.walk toCreate links location (name :: rest) toDirectory =
      if toCreate ∧ rest = [] then .ok (location ++ [name]) else .error .notFound := by
  -- Nothing is there to walk through, so that only the last name may be missing.
  rw [walk, if_neg proper.leaving, if_neg proper.descending, if_neg possible, if_neg proper.short]
  simp only [absent]

/-- The name of a directory leads into it. -/
theorem walk_directory (proper : Proper name) (possible : ¬ (toCreate ∧ toDirectory ∧ rest = []))
    (there : tree.node? (location ++ [name]) = some .directory) :
    tree.walk toCreate links location (name :: rest) toDirectory =
      tree.walk toCreate links (location ++ [name]) rest toDirectory := by
  -- The walk goes on in the directory.
  rw [walk, if_neg proper.leaving, if_neg proper.descending, if_neg possible, if_neg proper.short]
  simp only [there]

/-- The name of a file ends the way. -/
theorem walk_file {content : RawText} (proper : Proper name)
    (there : tree.node? (location ++ [name]) = some (.file content)) :
    tree.walk toCreate links location [name] false = .ok (location ++ [name]) := by
  -- A file can only be where the walk ends.
  rw [walk, if_neg proper.leaving, if_neg proper.descending, if_neg (by simp), if_neg proper.short]
  simp [there]

/-- The name of a link leads on along its target, for one of the links that may be followed. -/
theorem walk_link {target : String} (proper : Proper name)
    (possible : ¬ (toCreate ∧ toDirectory ∧ rest = []))
    (there : tree.node? (location ++ [name]) = some (.link target)) :
    tree.walk toCreate (links + 1) location (name :: rest) toDirectory =
      tree.walk toCreate links (if (Route.ofText target).fromRoot then [] else location)
        ((Route.ofText target).names ++ rest)
        (toDirectory || (rest.isEmpty && (Route.ofText target).toDirectory)) := by
  -- The names of the link's target come before those that are left.
  rw [walk, if_neg proper.leaving, if_neg proper.descending, if_neg possible, if_neg proper.short]
  simp only [there]

end Proper

namespace Leads

variable {fewer : Nat}

/-- What leads to a directory is walked along in front of any other name. -/
theorem walk_append (leads : Leads tree links location names fewer reached) (toCreate : Bool)
    (name : RawText) (rest : List RawText) (toDirectory : Bool) :
    tree.walk toCreate links location (names ++ name :: rest) toDirectory =
      tree.walk toCreate fewer reached (name :: rest) toDirectory := by
  induction leads with
  | arrived links location => rfl
  | stay onward ih => rw [List.cons_append, walk, if_pos rfl, ih]
  | leave onward ih => rw [List.cons_append, walk, if_neg (by decide), if_pos rfl, ih]
  | enter proper there onward ih =>
    rw [List.cons_append, proper.walk_directory (by simp) there, ih]
  | @follow _ _ _ _ _ others _ proper there onward ih =>
    -- The link is not at the end, so that it does not matter how its target ends.
    have filled : (others ++ name :: rest).isEmpty = false := by simp [List.isEmpty_eq_false_iff]
    rw [List.cons_append, proper.walk_link (by simp) there, filled]
    simpa using ih

/-- What leads to a directory is walked along to that directory. -/
theorem walk_eq (leads : Leads tree links location names fewer reached) :
    tree.walk false links location names true = .ok reached := by
  -- By induction on the way, each step of which is a case of the walk.
  induction leads with
  | arrived links location => rw [walk]
  | stay onward ih => rw [walk, if_pos rfl, ih]
  | leave onward ih => rw [walk, if_neg (by decide), if_pos rfl, ih]
  | enter proper there onward ih =>
    rw [proper.walk_directory (by simp) there, ih]
  | follow proper there onward ih =>
    rw [proper.walk_link (by simp) there]
    simpa using ih

/-- What leads to a directory does so wherever the directories and links are the same. -/
theorem kept (leads : Leads tree links location names fewer reached)
    (same : ∀ place node, tree.node? place = some node → (∀ content, node ≠ .file content) →
      other.node? place = some node) :
    Leads other links location names fewer reached := by
  -- By induction on the way, which passes directories and links but no files.
  induction leads with
  | arrived links location => exact .arrived links location
  | stay onward ih => exact .stay ih
  | leave onward ih => exact .leave ih
  | enter proper there onward ih => exact .enter proper (same _ _ there nofun) ih
  | follow proper there onward ih => exact .follow proper (same _ _ there nofun) ih

end Leads

/-- A route leads to a directory along its names, to a place where something is. -/
theorem directory_eq_ok {route : Route} : tree.directory route = .ok location ↔
    (∃ fewer, Leads tree maxLinks (start route) route.names fewer location) ∧
      (tree.node? location).isSome := by
  -- The walk has to end, and to end at a node.
  have sameStart : start { route with toDirectory := true } = start route := rfl
  simp only [directory, lookUp, sameStart]
  constructor
  · intro found
    cases walked : tree.walk false maxLinks (start route) route.names true with
    | error refusal => simp [walked, bind, Except.bind] at found
    | ok reached =>
      cases there : tree.node? reached with
      | none =>
        simp [walked, there, bind, Except.bind, throw, throwThe, MonadExceptOf.throw] at found
      | some node =>
        simp only [walked, there, bind, Except.bind, pure, Except.pure, Except.ok.injEq] at found
        -- The node at the end of the walk was looked up, and was there.
        subst found
        exact ⟨leads_of_walk rfl walked, by simp [there]⟩
  · rintro ⟨⟨fewer, leads⟩, there⟩
    obtain ⟨node, found⟩ := Option.isSome_iff_exists.mp there
    simp [leads.walk_eq, found, bind, Except.bind, pure, Except.pure]

/-- A path that is accepted is the way that its text describes, and not empty. -/
theorem of_ofPath {path : String} {route : Route} (accepted : Route.ofPath path = .ok route) :
    path ≠ "" ∧ route = Route.ofText path := by
  -- The only path that is accepted is one that passes all three checks.
  unfold Route.ofPath at accepted
  split_ifs at accepted with nul empty long
  exact ⟨empty, (Except.ok.inj accepted).symm⟩

/-- Something is at the place that a route to a directory names. -/
theorem node?_namedLocation {route : Route} {place : Location}
    (found : tree.directory route = .ok location) (named : route.names ≠ [])
    (spelled : tree.namedLocation route = .ok place) : (tree.node? place).isSome := by
  obtain ⟨⟨_, leads⟩, there⟩ := directory_eq_ok.mp found
  -- The names of the way are those of the parent and one more.
  obtain ⟨front, last, ends⟩ : ∃ front last, route.names = front ++ [last] :=
    ⟨_, _, (List.dropLast_concat_getLast named).symm⟩
  simp only [namedLocation, ends, List.getLast?_concat, List.dropLast_concat] at spelled
  cases above : tree.directory { route with names := front } with
  | error refusal => simp [above, bind, Except.bind] at spelled
  | ok parent =>
    obtain ⟨⟨fewer, before⟩, present⟩ := directory_eq_ok.mp above
    -- The way to the directory goes on from the parent with the last name.
    have onward : tree.walk false fewer parent [last] true = .ok location := by
      rw [← before.walk_append false last [] true, ← ends]
      exact leads.walk_eq
    simp only [above, bind, Except.bind, pure, Except.pure] at spelled
    split_ifs at spelled with here up long <;> cases spelled
    · exact present
    · rw [walk, if_neg here, if_pos up, walk] at onward
      cases onward
      exact there
    · cases absent : tree.node? (parent ++ [last]) with
      | none =>
        -- The way could not go on if nothing were there.
        have proper : Proper last := ⟨here, up, long⟩
        rw [proper.walk_missing (by simp) absent] at onward
        cases onward
      | some node => rfl

/-- Where a directory is, no other is created. -/
theorem createDirectories_existing {directory : String}
    (found : (Route.ofPath directory >>= tree.directory) = .ok location) :
    tree.createDirectories directory = .ok tree := by
  -- The path has been accepted, or no directory would have been found.
  cases accepted : Route.ofPath directory with
  | error refusal => simp [accepted, bind, Except.bind] at found
  | ok route =>
    simp only [accepted, bind, Except.bind] at found
    rw [createDirectories, if_neg (of_ofPath accepted).1, accepted]
    show tree.addDirectories route = .ok tree
    rw [addDirectories]
    split
    · rfl
    · rename_i named
      -- Adding the directory is refused, but there it is.
      have kept : tree.addDirectory route = .ok tree := by
        cases added : tree.add route .directory with
        | error refusal => simp [addDirectory, added, found]
        | ok other =>
          simp only [add, bind, Except.bind] at added
          cases spelled : tree.namedLocation route with
          | error refusal => simp [spelled] at added
          | ok place =>
            simp [spelled, node?_namedLocation found named spelled, throw, throwThe,
              MonadExceptOf.throw] at added
      rw [kept]

end SchemaLedger.FileTree
