import ParadigmScan.Proofs.FileTree.Nodes

/-!
This module contains the locations that paths lead to. A way that was followed to its end can be continued
from there, and a way along real directories ends where the names say.
-/

namespace ParadigmScan

namespace Node

def isLink : Node → Bool
  | link _ => true
  | _ => false

end Node

namespace Host

open ParadigmScan.Path

/--
What an operating system guarantees: the files are well-formed, and the program works in one of their
directories.
-/
structure WellFormed (host : Host) : Prop where
  tree : host.tree.WellFormed
  cwd : ∃ entries, host.tree.descend? host.cwd = some (.directory entries)

variable {host : Host}

@[simp]
theorem nodeAt_nil : host.nodeAt [] = host.tree := rfl

@[simp]
theorem nodeAt_cons (name : String) (node : Node) (location : Location) :
    host.nodeAt ((name, node) :: location) = node := rfl

def IsLocation (host : Host) : Location → Prop
  | [] => True
  | (name, node) :: rest => (host.nodeAt rest).child? name = some node ∧ host.IsLocation rest

theorem IsLocation.tail {location : Location} (h : host.IsLocation location) :
    host.IsLocation location.tail := by
  cases location with
  | nil => exact h
  | cons entry rest => exact h.2

theorem IsLocation.descend? {location : Location} (h : host.IsLocation location) :
    host.tree.descend? (location.map (·.1)).reverse = some (host.nodeAt location) := by
  induction location with
  | nil => rfl
  | cons entry rest ih =>
    obtain ⟨name, node⟩ := entry
    simp only [List.map_cons, List.reverse_cons]
    rw [Node.descend?_concat]
    rw [ih h.2]
    exact h.1

theorem IsLocation.ext {location location' : Location} (h : host.IsLocation location)
    (h' : host.IsLocation location') (hnames : location.map (·.1) = location'.map (·.1)) :
    location = location' := by
  induction location generalizing location' with
  | nil => simpa using hnames.symm
  | cons entry rest ih =>
    cases location' with
    | nil => simp at hnames
    | cons entry' rest' =>
      obtain ⟨name, node⟩ := entry
      obtain ⟨name', node'⟩ := entry'
      simp only [List.map_cons, List.cons.injEq] at hnames
      obtain ⟨rfl, hrest⟩ := hnames
      have hrest := ih h.2 h'.2 hrest
      subst hrest
      have hnode := h.1.symm.trans h'.1
      simp_all

theorem IsLocation.size_le {location : Location} (h : host.IsLocation location) :
    (host.nodeAt location).size ≤ host.tree.size :=
  Node.size_le_of_descend? h.descend?

theorem IsLocation.wellFormed {location : Location} (h : host.IsLocation location)
    (hhost : host.WellFormed) : (host.nodeAt location).WellFormed :=
  (hhost.tree.descend h.descend?).2

theorem foldl_workingLocation {names : List String} {location : Location} {node : Node}
    (hlocation : host.IsLocation location)
    (hnode : (host.nodeAt location).descend? names = some node) :
    host.IsLocation (names.foldl workingLocation.step (location, host.nodeAt location)).1 := by
  induction names generalizing location with
  | nil => exact hlocation
  | cons name names ih =>
    obtain ⟨child, hchild, hrest⟩ := Option.bind_eq_some_iff.mp hnode
    have hnext : host.IsLocation ((name, child) :: location) := ⟨hchild, hlocation⟩
    specialize ih hnext hrest
    simpa [workingLocation.step, hchild] using ih

theorem WellFormed.isLocation_workingLocation (h : host.WellFormed) :
    host.IsLocation host.workingLocation := by
  obtain ⟨entries, hentries⟩ := h.cwd
  have hnil : host.IsLocation [] := trivial
  exact foldl_workingLocation hnil hentries

theorem map_workingLocation (host : Host) : host.workingLocation.map (·.1) = host.cwd.reverse := by
  have hfold : ∀ (names : List String) (start : Location × Node),
      (names.foldl workingLocation.step start).1.map (·.1) = names.reverse ++ start.1.map (·.1) := by
    intro names
    induction names with
    | nil => simp
    | cons name names ih =>
      intro start
      rw [List.foldl_cons]
      rw [ih]
      simp [workingLocation.step]
  unfold workingLocation
  rw [hfold]
  simp

theorem isLocation_walk {links : Nat} {here location : Location} {steps : List String}
    (hhere : host.IsLocation here) (h : host.walk links here steps = .ok (.node location)) :
    host.IsLocation location := by
  fun_induction walk host links here steps with
  | case1 links here =>
    simp only [Except.ok.injEq, Destination.node.injEq] at h
    exact h ▸ hhere
  | case2 | case5 | case6 | case7 | case8 => simp at h
  | case3 links here step rest _ _ ih => exact ih hhere h
  | case4 links here step rest _ _ _ ih => exact ih hhere.tail h
  | case9 here step rest _ _ _ _ target _ links ih =>
    apply ih ?_ h
    split
    . trivial
    . exact hhere
  | case10 links here step rest _ _ _ _ node _ hchild ih => exact ih ⟨hchild, hhere⟩ h

theorem walk_append {links : Nat} {here location : Location} {steps : List String}
    (h : host.walk links here steps = .ok (.node location)) :
    ∃ left ≤ links, ∀ more, host.walk links here (steps ++ more) = host.walk left location more := by
  fun_induction walk host links here steps with
  | case1 links here =>
    simp only [Except.ok.injEq, Destination.node.injEq] at h
    subst h
    exact ⟨links, Nat.le_refl links, fun more => rfl⟩
  | case2 | case5 | case6 | case7 | case8 => simp at h
  | case3 links here step rest hdirectory hdot ih =>
    obtain ⟨left, hle, hleft⟩ := ih h
    refine ⟨left, hle, fun more => ?_⟩
    rw [← hleft]
    rw [List.cons_append]
    rw [walk]
    simp [hdirectory, hdot]
  | case4 links here step rest hdirectory hdot hdots ih =>
    obtain ⟨left, hle, hleft⟩ := ih h
    refine ⟨left, hle, fun more => ?_⟩
    rw [← hleft]
    rw [List.cons_append]
    rw [walk]
    simp [hdirectory, hdot, hdots]
  | case9 here step rest hdirectory hdot hdots hsize target hchild links ih =>
    obtain ⟨left, hle, hleft⟩ := ih h
    refine ⟨left, Nat.le_succ_of_le hle, fun more => ?_⟩
    rw [← hleft]
    rw [List.cons_append]
    rw [walk]
    simp [hdirectory, hdot, hdots, hsize, hchild]
  | case10 links here step rest hdirectory hdot hdots hsize node hlink hchild ih =>
    obtain ⟨left, hle, hleft⟩ := ih h
    refine ⟨left, hle, fun more => ?_⟩
    rw [← hleft]
    rw [List.cons_append]
    rw [walk]
    simp [hdirectory, hdot, hdots, hsize, hchild]

theorem walk_cons_of_child? {links : Nat} {here : Location} {name : String} {child : Node}
    (hname : Node.IsName name) (hchild : (host.nodeAt here).child? name = some child)
    (hlink : child.isLink = false) (rest : List String) :
    host.walk links here (name :: rest) = host.walk links ((name, child) :: here) rest := by
  obtain ⟨entries, hnode, -⟩ := Node.child?_eq_some hchild
  have hdirectory : (host.nodeAt here).isDirectory = true := by
    rw [hnode]
    rfl
  have hsize : ¬ maxNameBytes < name.utf8ByteSize := Nat.not_lt.mpr hname.size_le
  rw [walk]
  cases child with
  | link target => simp [Node.isLink] at hlink
  | file | directory | special =>
    simp [hdirectory, hname.ne_dot, hname.ne_dots, hsize, hchild]

theorem isLink_eq_false_of_child? {node child : Node} {name : String}
    (h : node.child? name = some child) : node.isLink = false := by
  obtain ⟨entries, rfl, -⟩ := Node.child?_eq_some h
  rfl

theorem walk_descend {links : Nat} {here : Location} {names : List String} {node : Node}
    (hnames : ∀ name ∈ names, Node.IsName name)
    (hnode : (host.nodeAt here).descend? names = some node) (hlink : node.isLink = false) :
    ∃ location, host.walk links here names = .ok (.node location) ∧
      host.nodeAt location = node ∧ location.map (·.1) = names.reverse ++ here.map (·.1) := by
  induction names generalizing here with
  | nil =>
    simp only [Node.descend?, Option.some.injEq] at hnode
    exact ⟨here, by rw [walk], hnode, by simp⟩
  | cons name names ih =>
    obtain ⟨child, hchild, hrest⟩ := Option.bind_eq_some_iff.mp hnode
    have hchildLink : child.isLink = false := by
      cases names with
      | nil =>
        simp only [Node.descend?, Option.some.injEq] at hrest
        exact hrest ▸ hlink
      | cons next names =>
        obtain ⟨below, hbelow, -⟩ := Option.bind_eq_some_iff.mp hrest
        exact isLink_eq_false_of_child? hbelow
    have hname := hnames name (by simp)
    rw [walk_cons_of_child? hname hchild hchildLink]
    obtain ⟨location, hwalk, hat, hplace⟩ :=
      @ih ((name, child) :: here) (fun name h => hnames name (by simp [h])) hrest
    exact ⟨location, hwalk, hat, by simpa using hplace⟩

def origin (host : Host) (path : Path) : Location :=
  if path.anchor = .here then host.workingLocation else []

theorem follow_text {path : Path} (hpath : path.IsProper) (hne : path.names ≠ []) :
    host.follow path.text = host.walk maxLinks (host.origin path) path.names := by
  unfold follow origin
  rw [stepsOf_text hpath hne]
  have hslash := startsWith_slash_text hpath
  by_cases hanchor : path.anchor = .here <;> simp_all

theorem follow_text_of_names_nil {path : Path} (hnil : path.names = []) {location : Location}
    (h : host.follow path.text = .ok (.node location)) : location = host.origin path := by
  obtain ⟨anchor, names⟩ := path
  simp only at hnil
  subst hnil
  cases anchor with
  | here =>
    have hsteps : stepsOf "." = ["."] := by decide +kernel
    have hslash : ".".startsWith "/" = false := by decide +kernel
    simp only [text, follow, hsteps, hslash, Bool.false_eq_true, ↓reduceIte] at h
    rw [walk] at h
    split at h
    . simp at h
    . simpa [walk, origin, eq_comm] using h
  | root =>
    have hsteps : stepsOf "/" = [] := by decide +kernel
    simpa [text, Anchor.text, follow, hsteps, walk, origin] using h
  | doubleRoot =>
    have hsteps : stepsOf "//" = [] := by decide +kernel
    simpa [text, Anchor.text, follow, hsteps, walk, origin] using h

theorem isLocation_follow (hhost : host.WellFormed) {text : String} {location : Location}
    (h : host.follow text = .ok (.node location)) : host.IsLocation location := by
  apply isLocation_walk _ h
  split
  . trivial
  . exact hhost.isLocation_workingLocation

theorem follow_descend {path : Path} (hpath : path.IsProper) {location : Location}
    (h : host.follow path.text = .ok (.node location)) :
    ∃ left ≤ maxLinks, ∀ names, names ≠ [] → (∀ name ∈ names, IsStep name) →
      host.follow (path.descend names).text = host.walk left location names := by
  by_cases hnil : path.names = []
  . refine ⟨maxLinks, Nat.le_refl maxLinks, fun names hne hnames => ?_⟩
    rw [follow_text (hpath.descend hnames) (by simp [descend, hne])]
    rw [follow_text_of_names_nil hnil h]
    simp [descend, hnil, origin]
  . rw [follow_text hpath hnil] at h
    obtain ⟨left, hle, hleft⟩ := walk_append h
    refine ⟨left, hle, fun names hne hnames => ?_⟩
    rw [follow_text (hpath.descend hnames) (by simp [descend, hne])]
    exact hleft names

theorem follow_descend_real (hhost : host.WellFormed) {top : Path} (htop : top.IsProper)
    {location : Location} (hroot : host.follow top.text = .ok (.node location))
    {names : List String} {node : Node}
    (hnode : (host.nodeAt location).descend? names = some node) (hlink : node.isLink = false) :
    ∃ location', host.follow (top.descend names).text = .ok (.node location') ∧
      host.nodeAt location' = node ∧
      location'.map (·.1) = names.reverse ++ location.map (·.1) := by
  by_cases hne : names = []
  . subst hne
    simp only [Node.descend?, Option.some.injEq] at hnode
    exact ⟨location, by simpa using hroot, hnode, by simp⟩
  . have hlocation := isLocation_follow hhost hroot
    have hnames := ((hlocation.wellFormed hhost).descend hnode).1
    obtain ⟨left, -, hleft⟩ := follow_descend htop hroot
    rw [hleft names hne fun name h => (hnames name h).toIsStep]
    exact walk_descend hnames hnode hlink

theorem follow_child (hhost : host.WellFormed) {path : Path} (hpath : path.IsProper)
    {location : Location} (h : host.follow path.text = .ok (.node location)) {name : String}
    {child : Node} (hchild : (host.nodeAt location).child? name = some child)
    (hlink : child.isLink = false) :
    host.follow (path.descend [name]).text = .ok (.node ((name, child) :: location)) := by
  have hname := (((isLocation_follow hhost h).wellFormed hhost).child hchild).1
  obtain ⟨left, -, hleft⟩ := follow_descend hpath h
  rw [hleft [name] (by simp) (by simpa using hname.toIsStep)]
  rw [walk_cons_of_child? hname hchild hlink]
  rw [walk]

def Permits (host : Host) (text : String) : Prop :=
  text.utf8ByteSize < maxPathBytes ∧ host.bars text = false

instance {text : String} : Decidable (host.Permits text) :=
  inferInstanceAs (Decidable (_ ∧ _))

theorem find_of_permits {text : String} (h : host.Permits text) : host.find text = host.follow text := by
  unfold find
  rw [if_neg (Nat.not_le.mpr h.1)]
  rw [h.2]
  rfl

theorem find_of_not_permits {text : String} (h : ¬ host.Permits text) :
    ∃ error, host.find text = .error error ∧ error.meansAbsent = false := by
  unfold find
  by_cases hsize : maxPathBytes ≤ text.utf8ByteSize
  . rw [if_pos hsize]
    exact ⟨_, rfl, rfl⟩
  . rw [if_neg hsize]
    have hbars : host.bars text = true := by
      rw [← Bool.not_eq_false]
      intro hbars
      exact h ⟨Nat.not_le.mp hsize, hbars⟩
    rw [hbars]
    exact ⟨_, rfl, rfl⟩

theorem permits_of_find {text : String} {destination : Destination}
    (h : host.find text = .ok destination) : host.Permits text := by
  by_contra hpermits
  obtain ⟨error, herror, -⟩ := find_of_not_permits hpermits
  rw [h] at herror
  cases herror

theorem resolve_of_not_permits {text : String} (h : ¬ host.Permits text) :
    ∃ error, host.resolve text = .error error ∧ error.meansAbsent = false := by
  obtain ⟨error, herror, habsent⟩ := find_of_not_permits h
  unfold resolve locate
  rw [herror]
  exact ⟨error, rfl, habsent⟩

theorem resolve_eq_ok_iff {text : String} {node : Node} :
    host.resolve text = .ok node ↔
      host.Permits text ∧
        ∃ location, host.follow text = .ok (.node location) ∧ host.nodeAt location = node := by
  by_cases hpermits : host.Permits text
  . unfold resolve locate
    rw [find_of_permits hpermits]
    cases host.follow text with
    | error error => simp [bind, Except.bind, Functor.map, Except.map]
    | ok destination =>
      cases destination with
      | node location => simp [hpermits, bind, Except.bind, Functor.map, Except.map, pure, Except.pure]
      | missing location name =>
        simp [bind, Except.bind, Functor.map, Except.map, throw, throwThe, MonadExceptOf.throw]
  . obtain ⟨error, herror, -⟩ := resolve_of_not_permits hpermits
    simp [herror, hpermits]

theorem listEntries_eq_ok_iff {path : Path} {found : List (String × Node)} :
    host.listEntries path = .ok found ↔
      host.isDenied path = false ∧
        ∃ entries, host.resolve path.text = .ok (.directory entries) ∧ found = Node.byName entries := by
  unfold listEntries
  cases hdenied : host.isDenied path with
  | true => simp [bind, Except.bind, throw, throwThe, MonadExceptOf.throw]
  | false =>
    simp only [Bool.false_eq_true, ↓reduceIte, true_and, bind, Except.bind, pure, Except.pure]
    cases host.resolve path.text with
    | error error => simp
    | ok node =>
      cases node with
      | directory entries => simp [Node.byName, eq_comm]
      | file | link | special => simp [throw, throwThe, MonadExceptOf.throw]

theorem exists_of_listEntries {path : Path} {found : List (String × Node)}
    (h : host.listEntries path = .ok found) :
    ∃ location entries, host.follow path.text = .ok (.node location) ∧
      host.nodeAt location = .directory entries ∧ found = Node.byName entries := by
  obtain ⟨-, entries, hresolve, hfound⟩ := listEntries_eq_ok_iff.mp h
  obtain ⟨-, location, hfollow, hat⟩ := resolve_eq_ok_iff.mp hresolve
  exact ⟨location, entries, hfollow, hat, hfound⟩

theorem isName_of_mem_listEntries (hhost : host.WellFormed) {path : Path}
    {found : List (String × Node)} (h : host.listEntries path = .ok found) {entry : String × Node}
    (hentry : entry ∈ found) : Node.IsName entry.1 := by
  obtain ⟨location, entries, hfollow, hat, rfl⟩ := exists_of_listEntries h
  have hwellFormed := (isLocation_follow hhost hfollow).wellFormed hhost
  rw [hat] at hwellFormed
  exact hwellFormed.isName (Node.mem_byName.mp hentry)

theorem listEntries_descend (hhost : host.WellFormed) {top : Path} (htop : top.IsProper)
    {root : Node} (hroot : host.resolve top.text = .ok root) {names : List String}
    {entries found : List (String × Node)}
    (hnode : root.descend? names = some (.directory entries))
    (hfound : host.listEntries (top.descend names) = .ok found) : found = Node.byName entries := by
  obtain ⟨-, location, hfollow, hat⟩ := resolve_eq_ok_iff.mp hroot
  subst hat
  obtain ⟨location', hfollow', hat', -⟩ := follow_descend_real hhost htop hfollow hnode rfl
  obtain ⟨-, entries', hresolve, rfl⟩ := listEntries_eq_ok_iff.mp hfound
  obtain ⟨-, location'', hfollow'', hat''⟩ := resolve_eq_ok_iff.mp hresolve
  rw [hfollow'] at hfollow''
  simp only [Except.ok.injEq, Destination.node.injEq] at hfollow''
  subst hfollow''
  rw [hat'] at hat''
  simp only [Node.directory.injEq] at hat''
  rw [hat'']

end Host

end ParadigmScan
