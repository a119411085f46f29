import ParadigmScan.Proofs.FileTree.Locations

/-!
This module contains how the same entry is looked up along different ways. A way to its directory that leads over
links leaves fewer of them for the entry itself than the way along real directories; where both ways lead somewhere,
they lead to the same place.
-/

namespace ParadigmScan

def Path.real (place : List String) : Path := { anchor := .root, names := place.reverse }

namespace Host

variable {host : Host}

theorem walk_mono {links links' : Nat} (hle : links ≤ links') {here location : Location}
    {steps : List String} (h : host.walk links here steps = .ok (.node location)) :
    host.walk links' here steps = .ok (.node location) := by
  fun_induction walk host links here steps generalizing links' with
  | case1 links here =>
    rw [walk]
    exact h
  | case2 | case5 | case6 | case7 | case8 => simp at h
  | case3 links here step rest hdirectory hdot ih =>
    rw [walk]
    simpa [hdirectory, hdot] using ih hle h
  | case4 links here step rest hdirectory hdot hdots ih =>
    rw [walk]
    simpa [hdirectory, hdot, hdots] using ih hle h
  | case9 here step rest hdirectory hdot hdots hsize target hchild links ih =>
    cases links' with
    | zero => omega
    | succ links' =>
      rw [walk]
      simpa [hdirectory, hdot, hdots, hsize, hchild] using ih (by omega) h
  | case10 links here step rest hdirectory hdot hdots hsize node hlink hchild ih =>
    rw [walk]
    simpa [hdirectory, hdot, hdots, hsize, hchild] using ih hle h

theorem walk_location (hhost : host.WellFormed) {location : Location}
    (hlocation : host.IsLocation location) (hlink : (host.nodeAt location).isLink = false)
    (links : Nat) (rest : List String) :
    host.walk links [] ((location.map (·.1)).reverse ++ rest) = host.walk links location rest := by
  induction location generalizing rest with
  | nil => rfl
  | cons entry location ih =>
    obtain ⟨name, node⟩ := entry
    obtain ⟨hchild, hlocation⟩ := hlocation
    have hname := ((hlocation.wellFormed hhost).child hchild).1
    rw [List.map_cons]
    rw [List.reverse_cons]
    rw [List.append_assoc]
    rw [List.singleton_append]
    rw [ih hlocation (isLink_eq_false_of_child? hchild)]
    exact walk_cons_of_child? hname hchild hlink rest

theorem follow_real (hhost : host.WellFormed) {location : Location}
    (hlocation : host.IsLocation location) (hlink : (host.nodeAt location).isLink = false)
    {name : String} (hname : Node.IsName name) :
    host.follow (Path.real (name :: location.map (·.1))).text = host.walk maxLinks location [name] := by
  have hnames := (hhost.tree.descend hlocation.descend?).1
  have hproper : (Path.real (name :: location.map (·.1))).IsProper := by
    intro other hother
    simp only [Path.real, List.reverse_cons, List.mem_append, List.mem_singleton] at hother
    rcases hother with hother | rfl
    . exact (hnames other hother).toIsStep
    . exact hname.toIsStep
  have hne : (Path.real (name :: location.map (·.1))).names ≠ [] := by simp [Path.real]
  rw [follow_text hproper hne]
  simp only [Path.real, origin, reduceCtorEq, ↓reduceIte, List.reverse_cons]
  exact walk_location hhost hlocation hlink maxLinks [name]

theorem follow_real_of_follow (hhost : host.WellFormed) {path : Path} (hpath : path.IsProper)
    {location location' : Location} (h : host.follow path.text = .ok (.node location))
    (hlink : (host.nodeAt location).isLink = false) {name : String} (hname : Node.IsName name)
    (h' : host.follow (path.descend [name]).text = .ok (.node location')) :
    host.follow (Path.real (name :: location.map (·.1))).text = .ok (.node location') := by
  obtain ⟨left, hle, hleft⟩ := follow_descend hpath h
  rw [hleft [name] (by simp) (by simpa using hname.toIsStep)] at h'
  rw [follow_real hhost (isLocation_follow hhost h) hlink hname]
  exact walk_mono hle h'

end Host

end ParadigmScan
