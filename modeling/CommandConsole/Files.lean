import CommandConsole.Text.Basic

set_option autoImplicit false

/-!
# Files

What the program knows of a file system: a path leads to a text, or there is a reason why it
cannot be read.  A `Directory` is a small file system of its own, made of named texts.  A path is
followed step by step from the directory in which the program runs; of what lies outside of it
nothing is known but that the directories above are there.
-/

namespace CommandConsole

/-- Why a file cannot be read. -/
inductive ReadFailure where
  | missing
  /-- The path leads to a directory. -/
  | directory
  /-- The path goes on after a file. -/
  | notDirectory
  | denied
  /-- The path, or one of its steps, is longer than a file system takes. -/
  | tooLong
  /-- The path holds the character zero. -/
  | zeroCharacter
  /-- The file is not UTF-8. -/
  | notText
  | other (reason : Text)
  deriving DecidableEq, Repr, Inhabited

/-- The text of a failure. -/
def ReadFailure.message : ReadFailure → Text
  | .missing => "No such file or directory (os error 2)".toList
  | .directory => "Is a directory (os error 21)".toList
  | .notDirectory => "Not a directory (os error 20)".toList
  | .denied => "Permission denied (os error 13)".toList
  | .tooLong => "File name too long (os error 36)".toList
  | .zeroCharacter => "file name contained an unexpected NUL byte".toList
  | .notText => "stream did not contain valid UTF-8".toList
  | .other reason => reason

/-- How paths are read. -/
abbrev Files := Text → Except ReadFailure Text

namespace Files

/-- The number of bytes that no path reaches. -/
def pathLimit : Nat := 4096

/-- The number of bytes that no step of a path exceeds. -/
def stepLimit : Nat := 255

/-- Why a path leads nowhere, whatever files there are. -/
def refusal? (path : Text) : Option ReadFailure :=
  if path.any (· == '\x00') then some .zeroCharacter
  else if path.isEmpty then some .missing
  else if Text.byteSize path < pathLimit then none
  else some .tooLong

end Files

/-- Texts by their paths, from the directory in which the program runs. -/
structure Directory where
  files : List (Text × Text)
  deriving DecidableEq, Repr, Inhabited

/-- Where a path has led so far. -/
inductive Place where
  /-- A directory that is not among those of the files. -/
  | outside
  /-- A directory, by the names that lead to it. -/
  | inside (way : List Text)
  | file (content : Text)
  deriving DecidableEq, Repr, Inhabited

namespace Directory

/-- The parts of a path between slashes. -/
def segments : Text → List Text
  | [] => [[]]
  | c :: rest =>
    if c = '/' then [] :: segments rest
    else
      match segments rest with
      | [] => [[c]]
      | s :: more => (c :: s) :: more

/-- Whether a part of a path stays where it is. -/
def stays (step : Text) : Bool := step == [] || step == ['.']

/-- The names on the path of a file. -/
def names (path : Text) : List Text := (segments path).filter fun s => !stays s

/-- What the names lead to. -/
def find (d : Directory) (way : List Text) : Except ReadFailure Place :=
  match d.files.find? fun f => names f.1 = way with
  | some f => .ok (.file f.2)
  | none =>
    if d.files.any fun f => way.isPrefixOf (names f.1) then .ok (.inside way)
    else .error .missing

/-- One step on. -/
def follow (d : Directory) (step : Text) : Place → Except ReadFailure Place
  | .file _ => .error .notDirectory
  | .outside =>
    if stays step || step == ['.', '.'] then .ok .outside
    else if Files.stepLimit < Text.byteSize step then .error .tooLong
    else .error .missing
  | .inside way =>
    if stays step then .ok (.inside way)
    else if step = ['.', '.'] then .ok (if way.isEmpty then .outside else .inside way.dropLast)
    else if Files.stepLimit < Text.byteSize step then .error .tooLong
    else d.find (way ++ [step])

/-- Where a path begins: one with a slash in front has nothing to do with the directory. -/
def start : Text → Place
  | '/' :: _ => .outside
  | _ => .inside []

/-- Follows a path to its end. -/
def resolve (d : Directory) (path : Text) : Except ReadFailure Place :=
  (segments path).foldlM (fun place step => d.follow step place) (start path)

/-- Reads a path. -/
def read (d : Directory) : Files := fun path =>
  match Files.refusal? path with
  | some reason => .error reason
  | none =>
    match d.resolve path with
    | .ok (.file content) => .ok content
    | .ok _ => .error .directory
    | .error reason => .error reason

/-- Outside nothing is found. -/
theorem follow_outside {d : Directory} {step : Text} {p : Place}
    (h : d.follow step .outside = .ok p) : p = .outside := by
  simp only [follow] at h
  split at h
  · cases h
    rfl
  · split at h <;> cases h

theorem foldlM_follow_outside {d : Directory} {steps : List Text} {p : Place}
    (h : steps.foldlM (fun place step => d.follow step place) .outside = .ok p) :
    p = .outside := by
  induction steps with
  | nil => cases h; rfl
  | cons step rest ih =>
    rw [List.foldlM_cons] at h
    cases hs : d.follow step .outside with
    | error e => rw [hs] at h; cases h
    | ok q =>
      rw [hs, follow_outside hs] at h
      exact ih h

/-- A path with a slash in front reads nothing. -/
theorem read_slash (d : Directory) (rest content : Text) :
    d.read ('/' :: rest) ≠ .ok content := by
  intro h
  unfold read at h
  split at h
  · cases h
  · cases hr : d.resolve ('/' :: rest) with
    | error e => rw [hr] at h; cases h
    | ok p =>
      have hp : p = .outside := foldlM_follow_outside hr
      subst hp
      rw [hr] at h
      cases h

end Directory

end CommandConsole
