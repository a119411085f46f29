import ParadigmScan.Proofs.Failure
import ParadigmScan.Proofs.FileTree.Locations

/-!
This module contains what a path leads to after a file was written: the way to the file is the same as before, whatever
links are on it, and the file holds what was written.
-/

namespace ParadigmScan

namespace Node

def Admits (node : Node) : List String → Prop
  | [] => node.isFile = true
  | name :: rest => node.isDirectory = true ∧
      match node.child? name with
      | none => rest = []
      | some child => child.Admits rest

theorem lookup_alterEntry (name : String) (change : Option Node → Node)
    (entries : List (String × Node)) (other : String) :
    (alterEntry name change entries).lookup other =
      if other = name then some (change (entries.lookup name)) else entries.lookup other := by
  induction entries with
  | nil =>
    unfold alterEntry
    by_cases h : other = name
    . simp [h]
    . have hne : (other == name) = false := by simpa using h
      simp [List.lookup_cons, h, hne]
  | cons entry entries ih =>
    obtain ⟨first, node⟩ := entry
    unfold alterEntry
    by_cases hfirst : first = name
    . subst hfirst
      by_cases h : other = first
      . simp [h]
      . have hne : (other == first) = false := by simpa using h
        simp [List.lookup_cons, h, hne]
    . have hne : (first == name) = false := by simpa using hfirst
      have hne' : (name == first) = false := by simpa using Ne.symm hfirst
      simp only [hne, Bool.false_eq_true, ↓reduceIte, List.lookup_cons, ih, hne']
      by_cases h : other = first
      . subst h
        simp [hfirst]
      . have hother : (other == first) = false := by simpa using h
        simp [hother]

theorem child?_insert (node new : Node) (name : String) (rest : List String) (other : String) :
    (insert (name :: rest) new (some node)).child? other =
      if other = name then some (insert rest new (node.child? name)) else node.child? other := by
  rw [insert]
  exact lookup_alterEntry name (insert rest new) node.entries other

theorem isLink_insert {node : Node} {names : List String} (h : node.Admits names)
    (bytes : List UInt8) : node.isLink = false ∧ (insert names (.file bytes) (some node)).isLink = false := by
  cases names with
  | nil =>
    cases node with
    | file => exact ⟨rfl, rfl⟩
    | _ => cases h
  | cons name names =>
    cases node with
    | directory => exact ⟨rfl, rfl⟩
    | _ => cases h.1

theorem exists_descend?_insert {node child new : Node} {names target : List String}
    (htarget : node.Admits target) (h : node.descend? names = some child) :
    ∃ child', (insert target new (some node)).descend? names = some child' := by
  induction names generalizing node target with
  | nil => exact ⟨_, rfl⟩
  | cons name names ih =>
    obtain ⟨next, hnext, hrest⟩ := Option.bind_eq_some_iff.mp h
    cases target with
    | nil =>
      -- a file has no entries to go on with
      obtain ⟨entries, rfl, -⟩ := child?_eq_some hnext
      cases htarget
    | cons first target =>
      simp only [descend?, child?_insert]
      by_cases hname : name = first
      . subst hname
        simp only [Admits, hnext] at htarget
        simpa [hnext] using ih htarget.2 hrest
      . simpa [hname, hnext] using ⟨child, hrest⟩

end Node

/--
The names that lead to the end of a way.
-/
def Destination.names : Destination → List String
  | .node location => (location.map (·.1)).reverse
  | .missing location name => (location.map (·.1)).reverse ++ [name]

namespace Host

variable {host : Host} {target : List String} {bytes : List UInt8}

theorem admits_of_isLocation {location : Location} (h : host.IsLocation location)
    {rest : List String} (hrest : (host.nodeAt location).Admits rest) :
    host.tree.Admits ((location.map (·.1)).reverse ++ rest) := by
  induction location generalizing rest with
  | nil => exact hrest
  | cons entry location ih =>
    obtain ⟨name, node⟩ := entry
    obtain ⟨hchild, hlocation⟩ := h
    rw [List.map_cons]
    rw [List.reverse_cons]
    rw [List.append_assoc]
    apply ih hlocation
    obtain ⟨entries, hentries, -⟩ := Node.child?_eq_some hchild
    simp only [List.singleton_append, Node.Admits, hchild]
    exact ⟨by rw [hentries]; rfl, hrest⟩

section Mirror

variable (htarget : host.tree.Admits target) {here here' : Location} (hhere : host.IsLocation here)
  (hhere' : (host.putFile target bytes).IsLocation here') (hnames : here'.map (·.1) = here.map (·.1))

include htarget hhere hhere' hnames

/--
On the way to the file there is what was there before, with the file put below it. Elsewhere nothing changes.
-/
theorem nodeAt_putFile :
    (∃ rest, target = (here.map (·.1)).reverse ++ rest ∧ (host.nodeAt here).Admits rest ∧
      (host.putFile target bytes).nodeAt here' =
        Node.insert rest (.file bytes) (some (host.nodeAt here))) ∨
    (¬ (here.map (·.1)).reverse <+: target ∧
      (host.putFile target bytes).nodeAt here' = host.nodeAt here) := by
  induction here generalizing here' with
  | nil =>
    obtain rfl : here' = [] := by simpa using hnames
    exact .inl ⟨target, rfl, htarget, rfl⟩
  | cons entry here ih =>
    obtain ⟨name, node⟩ := entry
    obtain ⟨entry', here', rfl⟩ : ∃ entry' rest', here' = entry' :: rest' := by
      cases here' with
      | nil => simp at hnames
      | cons entry' here' => exact ⟨entry', here', rfl⟩
    obtain ⟨name', node'⟩ := entry'
    simp only [List.map_cons, List.cons.injEq] at hnames
    obtain ⟨rfl, hnames⟩ := hnames
    obtain ⟨hchild, hhere⟩ := hhere
    obtain ⟨hchild', hhere'⟩ := hhere'
    rw [List.map_cons]
    rw [List.reverse_cons]
    rcases ih hhere hhere' hnames with ⟨rest, hrest, hadmits, hnode⟩ | ⟨houtside, hnode⟩
    . rw [hnode] at hchild'
      cases rest with
      | nil => simp [Node.insert, Node.child?, Node.entries] at hchild'
      | cons first rest =>
        rw [Node.child?_insert] at hchild'
        by_cases hfirst : name' = first
        . subst hfirst
          simp only [↓reduceIte, hchild, Option.some.injEq] at hchild'
          simp only [Node.Admits, hchild] at hadmits
          refine .inl ⟨rest, by simp [hrest], hadmits.2, hchild'.symm⟩
        . simp only [hfirst, ↓reduceIte, hchild, Option.some.injEq] at hchild'
          refine .inr ⟨?_, hchild'.symm⟩
          rw [hrest]
          rw [List.prefix_append_right_inj]
          simpa using hfirst
    . rw [hnode] at hchild'
      rw [hchild] at hchild'
      refine .inr ⟨?_, (Option.some.inj hchild').symm⟩
      exact fun h => houtside ((List.prefix_append _ _).trans h)

theorem isDirectory_putFile (hdirectory : (host.nodeAt here).isDirectory = true) :
    ((host.putFile target bytes).nodeAt here').isDirectory = true := by
  rcases nodeAt_putFile htarget hhere hhere' hnames with ⟨rest, -, hadmits, hnode⟩ | ⟨-, hnode⟩
  . rw [hnode]
    cases rest with
    | nil =>
      -- the file itself is no directory
      cases hat : host.nodeAt here with
      | file before => simp [hat, Node.isDirectory] at hdirectory
      | _ => simp [hat, Node.Admits, Node.isFile] at hadmits
    | cons first rest => rfl
  . rw [hnode]
    exact hdirectory

theorem child?_putFile_of_missing {name : String}
    (hplace : target = (here.map (·.1)).reverse ++ [name]) :
    ((host.putFile target bytes).nodeAt here').child? name = some (.file bytes) := by
  rcases nodeAt_putFile htarget hhere hhere' hnames with ⟨rest, hrest, -, hnode⟩ | ⟨houtside, -⟩
  . obtain rfl : rest = [name] := by
      rw [hplace] at hrest
      exact (List.append_cancel_left hrest).symm
    rw [hnode]
    rw [Node.child?_insert]
    simp [Node.insert]
  . exact absurd (hplace ▸ List.prefix_append _ _) houtside

theorem child?_putFile_of_some {name : String} {child : Node}
    (hchild : (host.nodeAt here).child? name = some child) :
    ∃ child', ((host.putFile target bytes).nodeAt here').child? name = some child' ∧
      (child' = child ∨ child.isLink = false ∧ child'.isLink = false) := by
  rcases nodeAt_putFile htarget hhere hhere' hnames with ⟨rest, -, hadmits, hnode⟩ | ⟨-, hnode⟩
  . rw [hnode]
    cases rest with
    | nil =>
      obtain ⟨entries, hentries, -⟩ := Node.child?_eq_some hchild
      simp [hentries, Node.Admits, Node.isFile] at hadmits
    | cons first rest =>
      rw [Node.child?_insert]
      by_cases hname : name = first
      . subst hname
        simp only [Node.Admits, hchild] at hadmits
        simp only [↓reduceIte, hchild]
        exact ⟨_, rfl, .inr (Node.isLink_insert hadmits.2 bytes)⟩
      . simp only [hname, ↓reduceIte]
        exact ⟨child, hchild, .inl rfl⟩
  . rw [hnode]
    exact ⟨child, hchild, .inl rfl⟩

end Mirror

theorem walk_putFile (htarget : host.tree.Admits target) {links : Nat} {here here' : Location}
    {steps : List String} {destination : Destination} (hhere : host.IsLocation here)
    (hhere' : (host.putFile target bytes).IsLocation here')
    (hnames : here'.map (·.1) = here.map (·.1))
    (h : host.walk links here steps = .ok destination) (hdestination : destination.names = target) :
    ∃ location, (host.putFile target bytes).walk links here' steps = .ok (.node location) ∧
      (host.putFile target bytes).nodeAt location = .file bytes := by
  fun_induction walk host links here steps generalizing here' with
  | case1 links here =>
    cases h
    rcases nodeAt_putFile htarget hhere hhere' hnames with ⟨rest, hrest, -, hnode⟩ | ⟨houtside, -⟩
    . obtain rfl : rest = [] := by
        rw [← hdestination] at hrest
        exact List.self_eq_append_right.mp hrest
      exact ⟨here', by rw [walk], hnode⟩
    . exact absurd (hdestination ▸ List.prefix_rfl) houtside
  | case2 | case5 | case7 | case8 => cases h
  | case3 links here step rest hdirectory hdot ih =>
    have hdirectory' := @isDirectory_putFile _ _ bytes htarget _ _ hhere hhere' hnames (by simpa using hdirectory)
    obtain ⟨location, hwalk, hat⟩ := ih hhere hhere' hnames h
    refine ⟨location, ?_, hat⟩
    rw [walk]
    simpa [hdirectory', hdot] using hwalk
  | case4 links here step rest hdirectory hdot hdots ih =>
    have hdirectory' := @isDirectory_putFile _ _ bytes htarget _ _ hhere hhere' hnames (by simpa using hdirectory)
    have htail : here'.tail.map (·.1) = here.tail.map (·.1) := by
      rw [List.map_tail]
      rw [List.map_tail]
      rw [hnames]
    obtain ⟨location, hwalk, hat⟩ := ih hhere.tail hhere'.tail htail h
    refine ⟨location, ?_, hat⟩
    rw [walk]
    simpa [hdirectory', hdot, hdots] using hwalk
  | case6 links here step rest hdirectory hdot hdots hsize hchild hrest =>
    cases h
    have hdirectory' := @isDirectory_putFile _ _ bytes htarget _ _ hhere hhere' hnames (by simpa using hdirectory)
    have hchild' := @child?_putFile_of_missing _ _ bytes htarget _ _ hhere hhere' hnames _ hdestination.symm
    obtain rfl : rest = [] := by simpa using hrest
    refine ⟨(step, .file bytes) :: here', ?_, rfl⟩
    rw [walk]
    simp only [hdirectory', hdot, hdots, hsize, hchild']
    simp [walk]
  | case9 here step rest hdirectory hdot hdots hsize link hchild links ih =>
    have hdirectory' := @isDirectory_putFile _ _ bytes htarget _ _ hhere hhere' hnames (by simpa using hdirectory)
    -- links are never in the place of the file, so this one is still there
    have hchild' : ((host.putFile target bytes).nodeAt here').child? step = some (.link link) := by
      obtain ⟨child, hchild', rfl | ⟨hlink, -⟩⟩ :=
        @child?_putFile_of_some _ _ bytes htarget _ _ hhere hhere' hnames _ _ hchild
      . exact hchild'
      . cases hlink
    have hstart : host.IsLocation (if link.startsWith "/" then [] else here) := by
      split
      . trivial
      . exact hhere
    have hstart' : (host.putFile target bytes).IsLocation
        (if link.startsWith "/" then [] else here') := by
      split
      . trivial
      . exact hhere'
    have hsame : (if link.startsWith "/" then [] else here').map (·.1) =
        (if link.startsWith "/" then [] else here).map (·.1) := by
      split
      . rfl
      . exact hnames
    obtain ⟨location, hwalk, hat⟩ := ih hstart hstart' hsame h
    refine ⟨location, ?_, hat⟩
    rw [walk]
    simpa [hdirectory', hdot, hdots, hsize, hchild'] using hwalk
  | case10 links here step rest hdirectory hdot hdots hsize node hlink hchild ih =>
    have hdirectory' := @isDirectory_putFile _ _ bytes htarget _ _ hhere hhere' hnames (by simpa using hdirectory)
    obtain ⟨child, hchild', hkind⟩ :=
      @child?_putFile_of_some _ _ bytes htarget _ _ hhere hhere' hnames _ _ hchild
    have hlink' : child.isLink = false := by
      rcases hkind with rfl | ⟨-, hlink'⟩
      . cases child with
        | link link => exact absurd rfl (hlink link)
        | _ => rfl
      . exact hlink'
    have hsame : ((step, child) :: here').map (·.1) = ((step, node) :: here).map (·.1) := by
      simp [hnames]
    have hnext : (host.putFile target bytes).IsLocation ((step, child) :: here') := ⟨hchild', hhere'⟩
    obtain ⟨location, hwalk, hat⟩ := ih ⟨hchild, hhere⟩ hnext hsame h
    refine ⟨location, ?_, hat⟩
    rw [walk]
    cases child with
    | link link => cases hlink'
    | _ => simpa [hdirectory', hdot, hdots, hsize, hchild'] using hwalk

theorem isLocation_missing {links : Nat} {here location : Location} {steps : List String}
    {name : String} (hhere : host.IsLocation here)
    (h : host.walk links here steps = .ok (.missing location name)) :
    host.IsLocation location ∧ (host.nodeAt location).Admits [name] := by
  fun_induction walk host links here steps with
  | case1 | case2 | case5 | case7 | case8 => cases h
  | case3 links here step rest hdirectory hdot ih => exact ih hhere h
  | case4 links here step rest hdirectory hdot hdots ih => exact ih hhere.tail h
  | case6 links here step rest hdirectory hdot hdots hsize hchild hrest =>
    cases h
    simp only [Node.Admits, hchild]
    exact ⟨hhere, by simpa using hdirectory, trivial⟩
  | case9 here step rest hdirectory hdot hdots hsize link hchild links ih =>
    apply ih _ h
    split
    . trivial
    . exact hhere
  | case10 links here step rest hdirectory hdot hdots hsize node hlink hchild ih =>
    exact ih ⟨hchild, hhere⟩ h

theorem isLocation_workingLocation_putFile (hhost : host.WellFormed)
    (htarget : host.tree.Admits target) :
    (host.putFile target bytes).IsLocation (host.putFile target bytes).workingLocation := by
  obtain ⟨entries, hentries⟩ := hhost.cwd
  obtain ⟨node, hnode⟩ := @Node.exists_descend?_insert _ _ (.file bytes) _ _ htarget hentries
  exact @foldl_workingLocation (host.putFile target bytes) _ [] _ trivial hnode

theorem follow_of_find {text : String} {destination : Destination}
    (h : host.find text = .ok destination) : host.follow text = .ok destination := by
  rw [find_of_permits (permits_of_find h)] at h
  exact h

theorem resolve_putFile (hhost : host.WellFormed) {text : String} {destination : Destination}
    (hfind : host.find text = .ok destination) (htarget : host.tree.Admits destination.names) :
    (host.putFile destination.names bytes).resolve text = .ok (.file bytes) := by
  have hpermits := permits_of_find hfind
  have hfollow := follow_of_find hfind
  rw [resolve_eq_ok_iff]
  refine ⟨hpermits, ?_⟩
  unfold follow at hfollow ⊢
  split at hfollow
  . next hslash =>
    rw [if_pos hslash]
    have hroot : host.IsLocation [] := trivial
    have hroot' : (host.putFile destination.names bytes).IsLocation [] := trivial
    exact walk_putFile htarget hroot hroot' rfl hfollow rfl
  . next hslash =>
    rw [if_neg hslash]
    apply walk_putFile htarget hhost.isLocation_workingLocation
      (isLocation_workingLocation_putFile hhost htarget) _ hfollow rfl
    rw [map_workingLocation]
    rw [map_workingLocation]
    rfl

theorem admits_of_find_missing (hhost : host.WellFormed) {text : String} {location : Location}
    {name : String} (h : host.find text = .ok (.missing location name)) :
    host.tree.Admits ((location.map (·.1)).reverse ++ [name]) := by
  obtain ⟨hlocation, hadmits⟩ : host.IsLocation location ∧ (host.nodeAt location).Admits [name] := by
    apply isLocation_missing _ (follow_of_find h)
    split
    . trivial
    . exact hhost.isLocation_workingLocation
  exact admits_of_isLocation hlocation hadmits

theorem admits_of_find_node (hhost : host.WellFormed) {text : String} {location : Location}
    (h : host.find text = .ok (.node location)) (hfile : (host.nodeAt location).isFile = true) :
    host.tree.Admits (location.map (·.1)).reverse := by
  rw [← List.append_nil (location.map (·.1)).reverse]
  exact admits_of_isLocation (isLocation_follow hhost (follow_of_find h)) hfile

/--
After a file was written it holds what was written, unless the path leads to something that is neither a file nor a
directory. Then nothing changes.
-/
theorem resolve_writeBytes (hhost : host.WellFormed) {text : String} {written : Host}
    (h : host.writeBytes text (fun _ => bytes) = .ok written) :
    written.resolve text = .ok (.file bytes) ∨
      written = host ∧
        ∃ node, host.resolve text = .ok node ∧ node.isFile = false ∧ node.isDirectory = false := by
  unfold writeBytes at h
  obtain ⟨destination, hfind, h⟩ := bind_eq_ok_iff.mp h
  have hwritten := @resolve_putFile _ bytes hhost _ _ hfind
  split at h
  . cases h
  cases destination with
  | missing location name =>
    cases h
    rw [List.map_reverse]
    exact .inl (hwritten (admits_of_find_missing hhost hfind))
  | node location =>
    have hresolve : host.resolve text = .ok (host.nodeAt location) := by
      unfold resolve locate
      rw [hfind]
      rfl
    cases hnode : host.nodeAt location with
    | directory entries =>
      simp only [hnode] at h
      cases h
    | file before =>
      simp only [hnode] at h
      cases h
      rw [List.map_reverse]
      apply Or.inl
      apply hwritten
      apply admits_of_find_node hhost hfind
      rw [hnode]
      rfl
    | link link =>
      simp only [hnode] at h
      cases h
      exact .inr ⟨rfl, _, hresolve, by simp [hnode, Node.isFile, Node.isDirectory]⟩
    | special =>
      simp only [hnode] at h
      cases h
      exact .inr ⟨rfl, _, hresolve, by simp [hnode, Node.isFile, Node.isDirectory]⟩

end Host

end ParadigmScan
