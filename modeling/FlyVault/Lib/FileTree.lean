/-
  File trees, and the operations of a file system on them.

  A file system is a family of places, indexed by any type `κ`, each of which is absent or
  holds a tree; a path is a place or an entry of the directory at a place. The operations
  answer as a file system does: `rename` replaces an empty directory and refuses another one,
  `createDirAll` accepts a directory that is there, `removeFile` says whether there was
  something to remove. Symbolic links are not followed except by `pathExists` and
  `createDirAll`, which ask `links` where a link leads.

  `find_insert`, `find_erase` and the lemmas on `get` and `put` read the operations back.
-/
import Mathlib.Logic.Function.Basic
import Mathlib.Data.List.Basic

namespace FlyVault.Lib

inductive Node
  | file (content : List UInt8)
  | symlink (target : String)
  /-- A device, a pipe or a socket. -/
  | special
  | dir (entries : List (String × Node))

inductive Kind
  | file
  | symlink
  | special
  | dir
  deriving DecidableEq, Repr

def Node.kind : Node → Kind
  | .file _ => .file
  | .symlink _ => .symlink
  | .special => .special
  | .dir _ => .dir

/-! ## Directories -/

/-- The entries of a directory; the first of two with the same name counts. -/
abbrev Entries := List (String × Node)

namespace Entries

def find : Entries → String → Option Node
  | [], _ => none
  | (key, n) :: es, name => if key = name then some n else find es name

def erase (es : Entries) (name : String) : Entries := es.filter fun e => e.1 ≠ name

def insert (es : Entries) (name : String) (n : Node) : Entries := (name, n) :: es.erase name

theorem find_erase (es : Entries) (name other : String) :
    (es.erase name).find other = if other = name then none else es.find other := by
  induction es with
  | nil => simp [erase, find]
  | cons e es ih =>
      obtain ⟨key, n⟩ := e
      unfold erase at ih ⊢
      by_cases hk : key = name
      · rw [List.filter_cons_of_neg (by simp [hk]), ih]
        by_cases ho : other = name
        · simp [ho]
        · simp [ho, find, hk, Ne.symm ho]
      · rw [List.filter_cons_of_pos (by simp [hk]), find, find, ih]
        by_cases ho : other = name
        · simp [ho, hk]
        · simp [ho]

theorem find_insert (es : Entries) (name other : String) (n : Node) :
    (es.insert name n).find other = if other = name then some n else es.find other := by
  rw [insert, find, find_erase]
  by_cases ho : other = name
  · simp [ho]
  · simp [ho, Ne.symm ho]

end Entries

/-! ## Places and paths -/

universe u

variable {κ : Type u}

abbrev Fs (κ : Type u) := κ → Option Node

/-- A place, or an entry of the directory at a place. -/
structure Path (κ : Type u) where
  place : κ
  entry : Option String

/-- The place itself. -/
def Path.at (k : κ) : Path κ := ⟨k, none⟩

/-- `join` with one name. -/
def Path.in (k : κ) (name : String) : Path κ := ⟨k, some name⟩

namespace Fs

def get (fs : Fs κ) (p : Path κ) : Option Node :=
  match p.entry with
  | none => fs p.place
  | some name =>
      match fs p.place with
      | some (.dir es) => Entries.find es name
      | _ => none

@[simp] theorem get_at (fs : Fs κ) (k : κ) : fs.get (.at k) = fs k := rfl

theorem get_in {fs : Fs κ} {k : κ} {es : Entries} (h : fs k = some (.dir es))
    (name : String) : fs.get (.in k name) = es.find name := by
  simp [get, Path.in, h]

variable [DecidableEq κ]

def put (fs : Fs κ) (p : Path κ) (n : Option Node) : Fs κ :=
  match p.entry with
  | none => Function.update fs p.place n
  | some name =>
      match fs p.place, n with
      | some (.dir es), some n =>
          Function.update fs p.place (some (.dir (Entries.insert es name n)))
      | some (.dir es), none => Function.update fs p.place (some (.dir (Entries.erase es name)))
      | _, _ => fs

@[simp] theorem put_at (fs : Fs κ) (k : κ) (n : Option Node) :
    fs.put (.at k) n = Function.update fs k n := rfl

theorem put_in_some {fs : Fs κ} {k : κ} {es : Entries} (h : fs k = some (.dir es))
    (name : String) (n : Node) :
    fs.put (.in k name) (some n) = Function.update fs k (some (.dir (es.insert name n))) := by
  simp [put, Path.in, h]

theorem put_in_none {fs : Fs κ} {k : κ} {es : Entries} (h : fs k = some (.dir es))
    (name : String) :
    fs.put (.in k name) none = Function.update fs k (some (.dir (es.erase name))) := by
  simp [put, Path.in, h]

/-- A change at a path is a change at its place. -/
theorem put_eq_update (fs : Fs κ) (p : Path κ) (n : Option Node) :
    fs.put p n = fs ∨ ∃ v, fs.put p n = Function.update fs p.place v := by
  obtain ⟨place, entry⟩ := p
  cases entry with
  | none => exact .inr ⟨n, rfl⟩
  | some name =>
      simp only [put]
      split
      · exact .inr ⟨_, rfl⟩
      · exact .inr ⟨_, rfl⟩
      · exact .inl rfl

theorem put_of_ne (fs : Fs κ) {p : Path κ} {k : κ} (h : k ≠ p.place) (n : Option Node) :
    fs.put p n k = fs k := by
  rcases put_eq_update fs p n with hsame | ⟨v, hv⟩
  · rw [hsame]
  · rw [hv, Function.update_of_ne h]

/-- Whether something can be created at a path. -/
def parentExists (fs : Fs κ) (p : Path κ) : Bool :=
  match p.entry with
  | none => true
  | some _ => (fs p.place).any fun n => n.kind = .dir

/-! ## Operations -/

/-- `stat` as a yes-or-no question. -/
def pathExists (links : String → Option Kind) (p : Path κ) (fs : Fs κ) : Bool :=
  match fs.get p with
  | none => false
  | some (.symlink target) => (links target).isSome
  | some _ => true

/-- `lstat`. -/
def lstat (p : Path κ) (fs : Fs κ) : Option Kind := (fs.get p).map Node.kind

/-- `unlink`: whether there was a file to remove. -/
def removeFile (p : Path κ) (fs : Fs κ) : Except String (Bool × Fs κ) :=
  match fs.get p with
  | none => .ok (false, fs)
  | some (.dir _) => .error "is a directory"
  | some _ => .ok (true, fs.put p none)

def removeDirAll (p : Path κ) (fs : Fs κ) : Except String (Unit × Fs κ) :=
  match fs.get p with
  | none => .error "no such file or directory"
  | some (.dir _) | some (.symlink _) => .ok ((), fs.put p none)
  | some _ => .error "not a directory"

def createDirAll (links : String → Option Kind) (p : Path κ) (fs : Fs κ) :
    Except String (Unit × Fs κ) :=
  match fs.get p with
  | none =>
      if fs.parentExists p then .ok ((), fs.put p (some (.dir [])))
      else .error "not a directory"
  | some (.dir _) => .ok ((), fs)
  | some (.symlink target) =>
      if links target = some .dir then .ok ((), fs) else .error "file exists"
  | some _ => .error "file exists"

/-- A directory that is created where there is something is one that was found. -/
theorem createDirAll_eq_ok {links : String → Option Kind} {p : Path κ} {fs : Fs κ}
    {r : Unit × Fs κ} (h : createDirAll links p fs = .ok r) :
    fs.get p = none ∧ r.2 = fs.put p (some (.dir [])) ∨
      r.2 = fs ∧ fs.pathExists links p = true := by
  unfold createDirAll at h
  split at h
  · next hnone =>
      split at h
      · cases h
        exact .inl ⟨hnone, rfl⟩
      · cases h
  · next hdir =>
      cases h
      exact .inr ⟨rfl, by simp [pathExists, hdir]⟩
  · next hlink =>
      split at h
      · next hleads =>
          cases h
          exact .inr ⟨rfl, by simp [pathExists, hlink, hleads]⟩
      · cases h
  · cases h

/-- What `rename` answers when it replaces something. -/
def replaceable : Node → Node → Bool
  | .dir _, .dir es => es.isEmpty
  | .dir _, _ => false
  | _, .dir _ => false
  | _, _ => true

def rename (p q : Path κ) (fs : Fs κ) : Except String (Unit × Fs κ) :=
  match fs.get p, fs.get q with
  | none, _ => .error "no such file or directory"
  | some n, none =>
      if fs.parentExists q then .ok ((), (fs.put p none).put q (some n))
      else .error "no such file or directory"
  | some n, some old =>
      if replaceable n old then .ok ((), (fs.put p none).put q (some n))
      else .error "directory not empty"

/-- A rename that takes place moves what is at the source, and replaces only what it may. -/
theorem rename_eq_ok {p q : Path κ} {fs : Fs κ} {r : Unit × Fs κ} (h : rename p q fs = .ok r) :
    ∃ n, fs.get p = some n ∧ r.2 = (fs.put p none).put q (some n) ∧
      ∀ old, fs.get q = some old → replaceable n old = true := by
  unfold rename at h
  split at h
  · cases h
  · next hp hq =>
      split at h
      · cases h
        refine ⟨_, hp, rfl, fun old hold => ?_⟩
        rw [hq] at hold
        cases hold
      · cases h
  · next hp hq =>
      split at h
      · next hreplace =>
          cases h
          refine ⟨_, hp, rfl, fun old hold => ?_⟩
          rw [hq] at hold
          cases hold
          exact hreplace
      · cases h

/-- `remove_dir`. -/
def removeDir (p : Path κ) (fs : Fs κ) : Except String (Unit × Fs κ) :=
  match fs.get p with
  | none => .error "no such file or directory"
  | some (.dir []) => .ok ((), fs.put p none)
  | some (.dir _) => .error "directory not empty"
  | some _ => .error "not a directory"

/-- `write`; through a link the file it leads to is written. -/
def write (p : Path κ) (content : List UInt8) (fs : Fs κ) : Except String (Unit × Fs κ) :=
  match fs.get p with
  | some (.dir _) => .error "is a directory"
  | some (.symlink _) | some .special => .ok ((), fs)
  | some (.file _) => .ok ((), fs.put p (some (.file content)))
  | none =>
      if fs.parentExists p then .ok ((), fs.put p (some (.file content)))
      else .error "no such file or directory"

def symlink (target : String) (p : Path κ) (fs : Fs κ) : Except String (Unit × Fs κ) :=
  match fs.get p with
  | none =>
      if fs.parentExists p then .ok ((), fs.put p (some (.symlink target)))
      else .error "no such file or directory"
  | some _ => .error "file exists"

end Fs

end FlyVault.Lib
