/-
ReservoirPlot/Proofs/Files/Writing.lean

Where paths lead, and that a file that was written can be opened.  `Leads` says part
by part where a path leads, and `Creates` at which paths a file can be created, both
apart from the functions that follow a path; these agree (`follow_eq_ok_iff`,
`target?_eq_some_iff`).

Writing adds the name of a file or finds it there, and takes no name and no right
away.  So every directory stays one, every step along a path that was possible stays
possible (`Leads.set`), and the path to which a file was written leads to this file
and opens what was written.

Main result: `open?_set`.
-/
import Mathlib.Data.List.Basic
import Mathlib.Tactic.SplitIfs
import ReservoirPlot.Files.Directory

namespace ReservoirPlot.Directory

variable {d : Directory} {names place target : List String} {bytes : List UInt8}
variable {part path : String} {parts front back : List String}

/-! ### Where a path leads -/

/-- Names lead to a directory that one may pass. -/
def Passes (d : Directory) (names : List String) : Prop :=
  d.isDirectory names ∧ (d.rights names).passable

theorem mayPass_iff : d.mayPass names ↔ d.Passes names := by
  rw [mayPass, Bool.and_eq_true, Passes]

/-- From a place, the parts of a path lead to another place.  An empty part, as between two slashes
or behind the last one, asks for a directory only; any other asks to pass it. -/
inductive Leads (d : Directory) : List String → List String → List String → Prop
  | nil (names : List String) : Leads d names [] names
  | empty {names parts place : List String} (hdirectory : d.isDirectory names)
    (hrest : Leads d names parts place) : Leads d names ("" :: parts) place
  | here {names parts place : List String} (hpass : d.Passes names)
    (hrest : Leads d names parts place) : Leads d names ("." :: parts) place
  | up {names parts place : List String} (hpass : d.Passes names)
    (hrest : Leads d names.dropLast parts place) : Leads d names (".." :: parts) place
  | down {names parts place : List String} {name : String} (hpass : d.Passes names)
    (hname : name ∉ ["", ".", ".."]) (hsize : name.utf8ByteSize ≤ 255)
    (hthere : (d.file? (names ++ [name])).isSome ∨ d.isDirectory (names ++ [name]))
    (hrest : Leads d (names ++ [name]) parts place) : Leads d names (name :: parts) place

/-- A step along a path leads on. -/
theorem Leads.of_step {next : List String} (hstep : d.step names part = .ok next)
    (hrest : d.Leads next parts place) : d.Leads names (part :: parts) place := by
  rw [step] at hstep
  split_ifs at hstep with hdirectory hempty hpass hhere hup hsize hthere
  · obtain rfl := Except.ok.inj hstep
    exact hempty ▸ .empty (by simpa using hdirectory) hrest
  · obtain rfl := Except.ok.inj hstep
    exact hhere ▸ .here (mayPass_iff.mp (by simpa using hpass)) hrest
  · obtain rfl := Except.ok.inj hstep
    exact hup ▸ .up (mayPass_iff.mp (by simpa using hpass)) hrest
  · obtain rfl := Except.ok.inj hstep
    exact .down (mayPass_iff.mp (by simpa using hpass)) (by simp [hempty, hhere, hup])
      (Nat.le_of_not_lt hsize) (Bool.or_eq_true .. ▸ hthere) hrest

/-- Where a path leads on, there is a step along it. -/
theorem Leads.exists_step (h : d.Leads names (part :: parts) place) :
    ∃ next, d.step names part = .ok next ∧ d.Leads next parts place := by
  cases h with
  | empty hdirectory hrest =>
    refine ⟨names, ?_, hrest⟩
    rw [step, if_neg (by simpa using hdirectory), if_pos rfl]
  | here hpass hrest =>
    refine ⟨names, ?_, hrest⟩
    rw [step, if_neg (by simpa using hpass.1), if_neg (by decide),
      if_neg (by simpa using mayPass_iff.mpr hpass), if_pos rfl]
  | up hpass hrest =>
    refine ⟨names.dropLast, ?_, hrest⟩
    rw [step, if_neg (by simpa using hpass.1), if_neg (by decide),
      if_neg (by simpa using mayPass_iff.mpr hpass), if_neg (by decide), if_pos rfl]
  | down hpass hname hsize hthere hrest =>
    refine ⟨names ++ [part], ?_, hrest⟩
    simp only [List.mem_cons, List.not_mem_nil, or_false, not_or] at hname
    have hshort : ¬ maxNameSize < part.utf8ByteSize := Nat.not_lt_of_le hsize
    rw [step, if_neg (by simpa using hpass.1), if_neg hname.1,
      if_neg (by simpa using mayPass_iff.mpr hpass), if_neg hname.2.1, if_neg hname.2.2,
      if_neg hshort, if_pos (Bool.or_eq_true .. ▸ hthere)]

/-- A path is followed to where it leads. -/
theorem follow_eq_ok_iff : d.follow names parts = .ok place ↔ d.Leads names parts place := by
  induction parts generalizing names with
  | nil =>
    rw [follow]
    constructor
    · rintro ⟨⟩
      exact .nil _
    · rintro ⟨⟩
      rfl
  | cons part rest ih =>
    rw [follow]
    constructor
    · intro h
      split at h
      · next hstep => exact .of_step hstep (ih.mp h)
      · cases h
    · intro h
      obtain ⟨next, hstep, hrest⟩ := h.exists_step
      rw [hstep]
      exact ih.mpr hrest

theorem Leads.append {between : List String} (hfront : d.Leads names front between)
    (hback : d.Leads between back place) : d.Leads names (front ++ back) place := by
  induction hfront with
  | nil => exact hback
  | empty hdirectory _ ih => exact .empty hdirectory (ih hback)
  | here hpass _ ih => exact .here hpass (ih hback)
  | up hpass _ ih => exact .up hpass (ih hback)
  | down hpass hname hsize hthere _ ih => exact .down hpass hname hsize hthere (ih hback)

/-! ### Where a file can be created -/

/-- The text is fit to be a path. -/
structure IsPath (path : String) : Prop where
  noZero : '\x00' ∉ path.toList
  ne_empty : path ≠ ""
  size_lt : path.utf8ByteSize < 4096

theorem checkPath_eq_ok_iff : checkPath path = .ok () ↔ IsPath path := by
  have hany : path.toList.any (· = '\x00') ↔ '\x00' ∈ path.toList := by simp
  rw [checkPath]
  split_ifs with hzero hempty hsize
  · exact iff_of_false nofun fun h => h.noZero (hany.mp hzero)
  · exact iff_of_false nofun fun h => h.ne_empty hempty
  · exact iff_of_false nofun fun h => Nat.not_le_of_lt h.size_lt hsize
  · exact iff_of_true rfl ⟨fun h => hzero (hany.mpr h), hempty, Nat.lt_of_not_le hsize⟩

/-- Where a path starts: at the root if it begins with a slash, else in the working directory. -/
def Starts (d : Directory) (path : String) (names : List String) : Prop :=
  names = if path.toList.head? = some '/' then [] else d.current

/-- A file can be created at a path, where it gets the names `target`: the path is that of a new name
or of a file, in a directory that may be passed; and the file may be written, or if it is not there
the directory may. -/
structure Creates (d : Directory) (path : String) (target : List String) : Prop where
  isPath : IsPath path
  leads : ∃ start front folder name, d.Starts path start
    ∧ (path.toList.splitOn '/').map String.ofList = front ++ [name]
    ∧ d.Leads start front folder ∧ d.Passes folder
    ∧ name ∉ ["", ".", ".."] ∧ name.utf8ByteSize ≤ 255 ∧ target = folder ++ [name]
    ∧ (d.file? target = none → (d.rights folder).writable)
  not_directory : ¬ d.isDirectory target
  writable : ∀ file, d.file? target = some file → file.writable

theorem mayWrite_iff {folder : List String} : d.mayWrite folder target
    ↔ (d.file? target = none → (d.rights folder).writable)
      ∧ ∀ file, d.file? target = some file → file.writable := by
  rw [mayWrite]
  rcases d.file? target with - | file
  · simp
  · simp

theorem toOption_eq_some_iff {ε α : Type} {x : Except ε α} {a : α} :
    x.toOption = some a ↔ x = .ok a := by
  cases x with
  | error e => exact iff_of_false nofun nofun
  | ok b => exact ⟨fun h => congrArg Except.ok (Option.some.inj h),
      fun h => congrArg some (Except.ok.inj h)⟩

/-- A path is one to create a file at exactly if a file can be created there. -/
theorem target?_eq_some_iff : d.target? path = some target ↔ d.Creates path target := by
  constructor
  · intro h
    simp only [target?, Option.bind_eq_bind, Option.bind_eq_some_iff, toOption_eq_some_iff] at h
    obtain ⟨⟨⟩, hcheck, name, hname, folder, hfollow, h⟩ := h
    split_ifs at h with hbad hrefused
    obtain rfl := Option.some.inj h
    simp only [Bool.or_eq_true, decide_eq_true_eq, not_or, Bool.not_eq_true', Bool.not_eq_false,
      Nat.not_lt] at hbad hrefused
    obtain ⟨⟨hpass, hdirectory⟩, hwrite⟩ := hrefused
    obtain ⟨hnew, hold⟩ := mayWrite_iff.mp hwrite
    refine ⟨checkPath_eq_ok_iff.mp hcheck, ⟨d.start path, (Path.parts path).dropLast, folder, name,
      ?_, ?_, follow_eq_ok_iff.mp hfollow, mayPass_iff.mp hpass, hbad.1, hbad.2, rfl, hnew⟩,
      hdirectory, hold⟩
    · simp [Starts, start, Path.isRooted]
    · exact (List.dropLast_append_getLast? name hname).symm
  · rintro ⟨hpath, ⟨start, front, folder, name, hstart, hparts, hleads, hpass, hname, hsize, rfl,
      hnew⟩, hdirectory, hold⟩
    have hstart' : d.start path = start := by
      rw [hstart, Directory.start]
      simp [Path.isRooted]
    have hparts' : Path.parts path = front ++ [name] := hparts
    have hbad : ¬ (decide (name ∈ ["", ".", ".."]) || decide (maxNameSize < name.utf8ByteSize)) := by
      simp only [Bool.or_eq_true, decide_eq_true_eq, not_or]
      exact ⟨hname, Nat.not_lt_of_le hsize⟩
    have hrefused : ¬ (!d.mayPass folder || d.isDirectory (folder ++ [name])
        || !d.mayWrite folder (folder ++ [name])) := by
      simp only [Bool.or_eq_true, Bool.not_eq_true', not_or, Bool.not_eq_false]
      exact ⟨⟨mayPass_iff.mpr hpass, hdirectory⟩, mayWrite_iff.mpr ⟨hnew, hold⟩⟩
    simp only [target?, Option.bind_eq_bind, Option.bind_eq_some_iff, toOption_eq_some_iff]
    refine ⟨(), checkPath_eq_ok_iff.mpr hpath, name, ?_, folder, ?_, ?_⟩
    · rw [hparts', List.getLast?_concat]
    · rw [hparts', List.dropLast_concat, hstart']
      exact follow_eq_ok_iff.mpr hleads
    · rw [if_neg hbad, if_neg hrefused]

example : ((empty.set ["data", "a.plt"] []).target? "../data/./b.json", empty.target? "/b.json",
    (empty.set ["data", "a.plt"] []).target? "../data/a.plt/b.json")
      = (some ["data", "b.json"], some ["b.json"], none) := by
  decide +kernel

/-! ### Names that are there -/

/-- Writing takes no name away. -/
theorem mem_names_set (h : names ∈ d.files.map (·.1)) :
    names ∈ (d.set target bytes).files.map (·.1) := by
  obtain ⟨file, hfile, rfl⟩ := List.mem_map.mp h
  rw [set]
  dsimp only
  split
  · refine List.mem_map.mpr ⟨_, List.mem_map_of_mem hfile, ?_⟩
    split
    · next heq => exact heq.symm
    · rfl
  · exact List.mem_map_of_mem (List.mem_append_left _ hfile)

theorem isDirectory_iff : d.isDirectory names ↔ names <+: d.current
    ∨ (∃ folder ∈ d.folders.map (·.1), names <+: folder)
    ∨ ∃ file ∈ d.files.map (·.1), names <+: file ∧ names ≠ file := by
  simp [isDirectory, or_assoc]

/-- Directories stay directories. -/
theorem isDirectory_set (h : d.isDirectory names) : (d.set target bytes).isDirectory names := by
  rcases isDirectory_iff.mp h with hcurrent | hfolder | ⟨file, hfile, hbelow⟩
  · exact isDirectory_iff.mpr (.inl hcurrent)
  · exact isDirectory_iff.mpr (.inr (.inl hfolder))
  · exact isDirectory_iff.mpr (.inr (.inr ⟨file, mem_names_set hfile, hbelow⟩))

/-- Files stay files. -/
theorem isSome_file?_set (h : (d.file? names).isSome) :
    ((d.set target bytes).file? names).isSome := by
  by_cases heq : names = target
  · rw [heq, file?_set_self]
    rfl
  · rwa [file?_set_of_ne heq]

theorem Passes.set (h : d.Passes names) : (d.set target bytes).Passes names :=
  ⟨isDirectory_set h.1, h.2⟩

/-- A path that led somewhere still leads there. -/
theorem Leads.set (h : d.Leads names parts place) :
    (d.set target bytes).Leads names parts place := by
  induction h with
  | nil => exact .nil _
  | empty hdirectory _ ih => exact .empty (isDirectory_set hdirectory) ih
  | here hpass _ ih => exact .here hpass.set ih
  | up hpass _ ih => exact .up hpass.set ih
  | down hpass hname hsize hthere _ ih =>
    exact .down hpass.set hname hsize (hthere.imp isSome_file?_set isDirectory_set) ih

/-! ### Opening what was written -/

/-- A path that leads to a file that may be read opens it. -/
theorem open?_of_leads {file : File} (hpath : IsPath path)
    (hleads : d.Leads (d.start path) (Path.parts path) names) (hfile : d.file? names = some file)
    (hreadable : file.readable) : d.open? path = .ok (.ofBytes file.bytes) := by
  have hresolve : d.resolve path = .ok names := by
    rw [resolve, checkPath_eq_ok_iff.mpr hpath]
    exact follow_eq_ok_iff.mpr hleads
  simp only [open?, hresolve, bind, Except.bind, hfile, hreadable, if_true]
  rfl

/-- **A path opens what was written to it**, if the file may be read. -/
theorem open?_set (h : d.Creates path target) (bytes : List UInt8)
    (hreadable : ∀ file, d.file? target = some file → file.readable) :
    (d.set target bytes).open? path = .ok (.ofBytes bytes) := by
  obtain ⟨start, front, folder, name, hstart, hparts, hleads, hpass, hname, hsize, rfl, -⟩ :=
    h.leads
  have hstart' : (d.set (folder ++ [name]) bytes).start path = start := by
    rw [hstart, Directory.start]
    simp [Path.isRooted]
  have hthere := d.file?_set_self (folder ++ [name]) bytes
  -- The directory is reached as before, and the name in it is there now.
  have hreach : (d.set (folder ++ [name]) bytes).Leads
      ((d.set (folder ++ [name]) bytes).start path) (Path.parts path) (folder ++ [name]) := by
    rw [hstart', show Path.parts path = front ++ [name] from hparts]
    refine hleads.set.append (.down hpass.set hname hsize (.inl ?_) (.nil _))
    rw [hthere]
    rfl
  refine open?_of_leads h.isPath hreach hthere ?_
  rcases hfile : d.file? (folder ++ [name]) with - | file
  · rfl
  · exact hreadable file hfile

end ReservoirPlot.Directory
