import ParadigmScan.Proofs.FileTree.Absolute

/-!
This module contains how real paths are found name by name. Each name is examined under the real path that was found
so far, and a link that cannot be examined there, because that path is too long or barred, is kept as it is. If all
links can be examined under their real paths, none is kept.
-/

namespace ParadigmScan

namespace Path

/--
The path one step up. At a root it stays there.
-/
def up (path : Path) : Path :=
  match path.names.getLast? with
  | none => if path.anchor = .here then path.child ".." else path
  | some name => if name == ".." then path.child ".." else { path with names := path.names.dropLast }

theorem child_real (place : List String) (name : String) : (real place).child name = real (name :: place) := by
  simp [real, child]

theorem up_real {place : List String} (h : ∀ name ∈ place, name ≠ "..") : (real place).up = real place.tail := by
  cases place with
  | nil => rfl
  | cons name place =>
    have hname := h name (by simp)
    simp [up, real, hname]

end Path

namespace Host

open ParadigmScan.Path

def linkAt? (host : Host) (directory : Path) (name : String) : Option String :=
  if host.Permits (directory.child name).text then
    match host.follow directory.text with
    | .ok (.node location) =>
      match (host.nodeAt location).child? name with
      | some (.link target) => some target
      | _ => none
    | _ => none
  else none

def examine (host : Host) (links : Nat) (done : Path) (steps : List String) : Option Path :=
  match steps with
  | [] => some done
  | step :: rest =>
    if step == "." then host.examine links done rest
    else if step == ".." then host.examine links done.up rest
    else
      match host.linkAt? done step with
      | none => host.examine links (done.child step) rest
      | some target =>
        match links with
        | 0 => none
        | links + 1 =>
          host.examine links (if target.startsWith "/" then real [] else done) (stepsOf target ++ rest)
termination_by (links, steps.length)

/--
The real place of a path, as far as its links can be examined.
-/
def realNames? (host : Host) (path : Path) : Option (List String) :=
  let start := if path.isAbsolute then real [] else { anchor := .here, names := [] }
  (host.examine maxLinks start (stepsOf path.text)).map fun found =>
    (absolute host.cwd found.text).names.reverse

def ShowsLinks (host : Host) : Prop :=
  ∀ place target, host.tree.descend? place.reverse = some (.link target) →
    host.Permits (real place).text

variable {host : Host} (hhost : host.WellFormed)

include hhost

theorem IsLocation.isName {location : Location} (h : host.IsLocation location) :
    ∀ name ∈ location.map (·.1), Node.IsName name := by
  intro name hname
  exact (hhost.tree.descend h.descend?).1 name (List.mem_reverse.mpr hname)

theorem isCollapsed_real {location : Location} (h : host.IsLocation location) :
    (real (location.map (·.1))).IsCollapsed := by
  have hnames := h.isName hhost
  refine ⟨rfl, ?_, ?_⟩
  . intro name hname
    exact (hnames name (List.mem_reverse.mp hname)).toIsStep
  . intro name hname
    exact (hnames name (List.mem_reverse.mp hname)).ne_dots

theorem follow_real_location {location : Location} (h : host.IsLocation location)
    (hlink : (host.nodeAt location).isLink = false) :
    host.follow (real (location.map (·.1))).text = .ok (.node location) := by
  by_cases hnil : location = []
  . subst hnil
    have hsteps : stepsOf "/" = [] := by decide +kernel
    have hslash : "/".startsWith "/" = true := by decide +kernel
    simp [real, text, Anchor.text, follow, hsteps, hslash, walk]
  . rw [follow_text (isCollapsed_real hhost h).isProper (by simpa [real] using hnil)]
    have hwalk := walk_location hhost h hlink maxLinks []
    rw [List.append_nil] at hwalk
    simp only [real, origin, reduceCtorEq, ↓reduceIte]
    rw [hwalk]
    rw [walk]

section Child

variable {location : Location} (hlocation : host.IsLocation location) {name : String}

include hlocation

theorem linkAt?_of_link (hshows : host.ShowsLinks) {target : String}
    (hchild : (host.nodeAt location).child? name = some (.link target)) :
    host.linkAt? (real (location.map (·.1))) name = some target := by
  have hlink : host.IsLocation ((name, .link target) :: location) := ⟨hchild, hlocation⟩
  have hpermits : host.Permits (real (name :: location.map (·.1))).text := hshows _ target hlink.descend?
  unfold linkAt?
  rw [child_real]
  rw [if_pos hpermits]
  rw [follow_real_location hhost hlocation (isLink_eq_false_of_child? hchild)]
  simp only [hchild]

theorem linkAt?_of_not_link {node : Node} (hchild : (host.nodeAt location).child? name = some node)
    (hlink : node.isLink = false) : host.linkAt? (real (location.map (·.1))) name = none := by
  unfold linkAt?
  rw [follow_real_location hhost hlocation (isLink_eq_false_of_child? hchild)]
  cases node with
  | link target => cases hlink
  | file | directory | special => simp [hchild]

end Child

theorem examine_of_walk (hshows : host.ShowsLinks) {links : Nat} {here location : Location}
    {steps : List String} (hhere : host.IsLocation here)
    (h : host.walk links here steps = .ok (.node location)) :
    host.examine links (real (here.map (·.1))) steps = some (real (location.map (·.1))) := by
  -- Both take a step at a time, and where one comes to a location the other has its real path. They would part
  -- only at a link that is followed but cannot be examined.
  fun_induction walk host links here steps with
  | case1 links here =>
    simp only [Except.ok.injEq, Destination.node.injEq] at h
    rw [examine]
    rw [h]
  | case2 | case5 | case6 | case7 | case8 => simp at h
  | case3 links here step rest hdirectory hdot ih =>
    rw [examine]
    simpa [hdot] using ih hhere h
  | case4 links here step rest hdirectory hdot hdots ih =>
    have hne : ∀ name ∈ here.map (·.1), name ≠ ".." := fun name hname =>
      (hhere.isName hhost name hname).ne_dots
    rw [examine]
    simp only [hdot, Bool.false_eq_true, ↓reduceIte, hdots]
    rw [up_real hne]
    rw [← List.map_tail]
    exact ih hhere.tail h
  | case9 here step rest hdirectory hdot hdots hsize target hchild links ih =>
    rw [examine]
    simp only [hdot, Bool.false_eq_true, ↓reduceIte, hdots]
    rw [linkAt?_of_link hhost hhere hshows hchild]
    by_cases habsolute : target.startsWith "/" = true
    . simp only [habsolute, ↓reduceIte, ↓reduceDIte] at ih h ⊢
      exact ih trivial h
    . simp only [habsolute, Bool.false_eq_true, ↓reduceIte, ↓reduceDIte] at ih h ⊢
      exact ih hhere h
  | case10 links here step rest hdirectory hdot hdots hsize node hlink hchild ih =>
    have hnode : node.isLink = false := by
      cases node with
      | link target => exact absurd rfl (hlink target)
      | file | directory | special => rfl
    rw [examine]
    simp only [hdot, Bool.false_eq_true, ↓reduceIte, hdots]
    rw [linkAt?_of_not_link hhost hhere hchild hnode]
    rw [child_real]
    exact ih ⟨hchild, hhere⟩ h

theorem realNames?_of_follow (hshows : host.ShowsLinks) {path : Path} (hpath : path.IsProper)
    (habsolute : path.isAbsolute = true) {location : Location}
    (h : host.follow path.text = .ok (.node location)) :
    host.realNames? path = some (location.map (·.1)) := by
  have hlocation := isLocation_follow hhost h
  have hslash : path.text.startsWith "/" = true := by
    rw [startsWith_slash_text hpath]
    simpa [isAbsolute] using habsolute
  have hnil : host.IsLocation [] := trivial
  unfold follow at h
  rw [if_pos hslash] at h
  have hexamine := examine_of_walk hhost hshows hnil h
  unfold realNames?
  simp only [habsolute, ↓reduceIte]
  rw [List.map_nil] at hexamine
  rw [hexamine]
  rw [Option.map_some]
  rw [absolute_text (isCollapsed_real hhost hlocation)]
  simp [real]

end Host

end ParadigmScan
