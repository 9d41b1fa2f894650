import Telemetry.Files

/-!
# What is added to a file

Wherever the walk along a path ends, it ends at the place that the path names (`isAt_of_walk`). A
path that ends in a slash leads to a directory at best (`walk_concat_dot`), and nothing can be added
there. So if a file can be opened at all, the file at the place of the path grows by what is added,
and every other file stays as it is (`append_cases`).
-/

namespace Telemetry

/-- The place reached by one step from another. -/
def Place.step (place : Place) (step : String) : Place :=
  if step == "" || step == "." then place
  else if step == ".." then place.up
  else place.down step

theorem Place.ofPath_eq (path : String) :
    Place.ofPath path = (pathSteps path).foldl Place.step (.start path) := rfl

/-- What was found at the end of a walk is what there is at a place. -/
def Target.IsAt (d : Directory) (place : Place) : Target → Prop
  | .directory => True
  | .file found content => found = place ∧ d.content? place = some content
  | .vacant found => found = place ∧ d.content? place = none

namespace Directory

variable {d d' : Directory} {here place : Place} {path : String}

/-! ## Walks -/

/-- A walk ends where its steps lead. -/
theorem isAt_of_walk {steps : List String} {target : Target}
    (h : d.walk here steps = .ok target) : target.IsAt d (steps.foldl Place.step here) := by
  fun_induction walk d here steps with
  | case1 =>
    cases h
    trivial
  | case2 here step rest hstay ih =>
    rw [List.foldl_cons, Place.step, if_pos hstay]
    exact ih h
  | case3 here step rest hstay hup ih =>
    rw [List.foldl_cons, Place.step, if_neg hstay, if_pos hup]
    exact ih h
  | case5 here step rest hstay hup _ below content hcontent hlast =>
    cases h
    obtain rfl : rest = [] := List.isEmpty_iff.mp hlast
    rw [List.foldl_cons, List.foldl_nil, Place.step, if_neg hstay, if_neg hup]
    exact ⟨rfl, hcontent⟩
  | case7 here step rest hstay hup _ below _ _ ih =>
    rw [List.foldl_cons, Place.step, if_neg hstay, if_neg hup]
    exact ih h
  | case8 here step rest hstay hup _ below hvacant _ hlast =>
    cases h
    obtain rfl : rest = [] := List.isEmpty_iff.mp hlast
    rw [List.foldl_cons, List.foldl_nil, Place.step, if_neg hstay, if_neg hup]
    exact ⟨rfl, hvacant⟩
  | case4 | case6 | case9 => cases h

/-- A walk that has to stay where it got to ends at a directory. -/
theorem walk_concat_dot {steps : List String} {target : Target}
    (h : d.walk here (steps ++ ["."]) = .ok target) : target = .directory := by
  have hlast : ∀ rest : List String, (rest ++ ["."]).isEmpty = false := by simp
  induction steps generalizing here with
  | nil =>
    cases h
    rfl
  | cons step rest ih =>
    rw [List.cons_append, walk] at h
    simp only [hlast, Bool.false_eq_true, if_false] at h
    split at h
    · exact ih h
    · split at h
      · exact ih h
      · split at h
        · cases h
        · split at h
          · cases h
          · split at h
            · exact ih h
            · cases h

/-- Where there could be a file at the end of a path, the path names the place of it. -/
theorem isAt_of_walk_stepsToMake {target : Target}
    (h : d.walk (.start path) (stepsToMake path) = .ok target) :
    target.IsAt d (.ofPath path) := by
  rw [stepsToMake] at h
  split at h
  · rw [walk_concat_dot h]
    trivial
  · rw [Place.ofPath_eq]
    exact isAt_of_walk h

/-! ## Contents -/

/-- The bytes of the file at a place, if there is one. -/
def bytesAt (d : Directory) (place : Place) : List UInt8 :=
  ((d.content? place).getD .empty).data.toList

/-- A file has grown, and no other has changed. -/
structure Grows (d : Directory) (place : Place) (added : ByteArray) (d' : Directory) : Prop where
  bytes : d'.bytesAt place = d.bytesAt place ++ added.data.toList
  others : ∀ other ≠ place, d'.content? other = d.content? other

theorem grows_of_vacant (h : d.content? place = none) (added : ByteArray) :
    d.Grows place added { d with files := d.files ++ [(place, added)] } where
  bytes := by
    have hnone : d.files.find? (·.1 == place) = none := Option.map_eq_none_iff.mp h
    simp [bytesAt, content?, List.find?_append, hnone]
  others other hother := by
    have hne : (place == other) = false := beq_false_of_ne hother.symm
    simp [content?, List.find?_append, hne]

theorem content?_map (d : Directory) {change : Place × ByteArray → Place × ByteArray}
    (hchange : ∀ file, (change file).1 = file.1) (place : Place) :
    { d with files := d.files.map change }.content? place
      = (d.content? place).map fun content => (change (place, content)).2 := by
  have hsame : (fun file : Place × ByteArray => file.1 == place) ∘ change = (·.1 == place) := by
    funext file
    rw [Function.comp, hchange]
  rw [content?, content?, List.find?_map, hsame]
  cases hfind : d.files.find? (·.1 == place) with
  | none => rfl
  | some file =>
    obtain rfl : file.1 = place := beq_iff_eq.mp (List.find?_some hfind :)
    rfl

theorem grows_of_file {content : ByteArray} (h : d.content? place = some content)
    (added : ByteArray) :
    d.Grows place added
      { d with
        files := d.files.map fun (other, old) =>
          if other == place then (other, old ++ added) else (other, old) } := by
  have hplace : ∀ file : Place × ByteArray,
      (if file.1 == place then (file.1, file.2 ++ added) else (file.1, file.2)).1 = file.1 := by
    intro file
    split <;> rfl
  constructor
  · rw [bytesAt, bytesAt, content?_map d hplace, h]
    simp
  · intro other hother
    rw [content?_map d hplace]
    simp [hother]

/-- Open the file at the end of a path to add to it, whether or not there is one yet. -/
def opened (d : Directory) (path : String) : Except FileError Place := do
  d.checkPath path
  match ← d.walk (.start path) (stepsToMake path) with
  | .directory => .error .isDirectory
  | .file place _ | .vacant place => .ok place

/-- What is added to a file that can be opened is added to the one that the path names; and nothing
but the opening can fail. -/
theorem append_cases (d : Directory) (path : String) (added : ByteArray) :
    (∃ e, d.opened path = .error e ∧ d.append path added = .error e) ∨
      ∃ d', d.opened path = .ok (.ofPath path) ∧ d.append path added = .ok d' ∧
        d.Grows (.ofPath path) added d' := by
  rw [opened, append]
  cases hcheck : d.checkPath path with
  | error e => exact .inl ⟨e, rfl, rfl⟩
  | ok _ =>
    cases hwalk : d.walk (.start path) (stepsToMake path) with
    | error e => exact .inl ⟨e, rfl, rfl⟩
    | ok target =>
      have hat := isAt_of_walk_stepsToMake hwalk
      cases target with
      | directory => exact .inl ⟨.isDirectory, rfl, rfl⟩
      | file found content =>
        obtain ⟨rfl, hcontent⟩ := hat
        exact .inr ⟨_, rfl, rfl, grows_of_file hcontent added⟩
      | vacant found =>
        obtain ⟨rfl, hvacant⟩ := hat
        exact .inr ⟨_, rfl, rfl, grows_of_vacant hvacant added⟩

end Directory

end Telemetry
