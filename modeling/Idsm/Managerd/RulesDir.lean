import Idsm.Foundation.OrderedMap
import Idsm.Foundation.Program
import Idsm.Foundation.Text

/-! The rules directory on disk: version directories, the link `current`, the
sequence file and the scratch entries, with the file-system calls on them. -/

set_option autoImplicit false

namespace Idsm.Managerd

open Idsm.Foundation

/-- The rule files of one directory. `origin` is not on disk: it records the
sequence number of the bundle that put the directory in place. -/
structure RuleSet where
  files : OrderedMap String (List UInt8)
  origin : Option Int
  deriving DecidableEq

/-- What is left when bit `i` of `progress` tells whether the `i`-th file is gone. -/
def RuleSet.without (rules : RuleSet) (progress : Nat) : RuleSet where
  files := .ofList
    ((rules.files.entries.zipIdx.filter fun entry => !progress.testBit entry.2).map (·.1))
  origin := rules.origin

inductive Entry where
  | file (content : List UInt8)
  | directory (rules : RuleSet)
  | link (target : String)
  deriving DecidableEq

inductive Errno where
  | noEntry
  | notDirectory
  | isDirectory
  | notEmpty
  | inputOutput
  deriving DecidableEq

def Errno.message : Errno → String
  | .noEntry => "No such file or directory"
  | .notDirectory => "Not a directory"
  | .isDirectory => "Is a directory"
  | .notEmpty => "Directory not empty"
  | .inputOutput => "Input/output error"

def isLinkName (name : String) : Bool := name == "current" || name == "current.tmp"

theorem isLinkName_current : isLinkName "current" = true := by decide

theorem isLinkName_currentTmp : isLinkName "current.tmp" = true := by decide

/-- Links are only ever made under two names. -/
structure RulesDir where
  entries : OrderedMap String Entry
  linked : ∀ name target, entries.find? name = some (.link target) → isLinkName name = true
  deriving DecidableEq

namespace RulesDir

def empty : RulesDir := ⟨.empty, by simp⟩

def node? (dir : RulesDir) (name : String) : Option Entry := dir.entries.find? name

theorem ext_entries {dir dir' : RulesDir} (same : ∀ name, dir.node? name = dir'.node? name) :
    dir = dir' := by
  obtain ⟨entries, linked⟩ := dir
  obtain ⟨entries', linked'⟩ := dir'
  have equal : entries = entries' := OrderedMap.ext same
  subst equal
  rfl

def erase (dir : RulesDir) (name : String) : RulesDir where
  entries := dir.entries.erase name
  linked := by
    intro other target found
    rw [OrderedMap.find?_erase] at found
    split_ifs at found
    exact dir.linked other target found

/-- Put an entry under a name that may hold it. -/
def put (dir : RulesDir) (name : String) (entry : Entry)
    (allowed : ∀ target, entry = .link target → isLinkName name = true) : RulesDir where
  entries := dir.entries.insert name entry
  linked := by
    intro other target found
    rw [OrderedMap.find?_insert] at found
    split_ifs at found with same
    · exact same ▸ allowed target (Option.some.inj found)
    · exact dir.linked other target found

def putFile (dir : RulesDir) (name : String) (content : List UInt8) : RulesDir :=
  dir.put name (.file content) (by simp)

def putDirectory (dir : RulesDir) (name : String) (rules : RuleSet) : RulesDir :=
  dir.put name (.directory rules) (by simp)

@[simp] theorem node?_empty (name : String) : empty.node? name = none := rfl

theorem node?_erase (dir : RulesDir) (name other : String) :
    (dir.erase name).node? other = if name = other then none else dir.node? other :=
  OrderedMap.find?_erase dir.entries name other

theorem node?_put (dir : RulesDir) (name other : String) (entry : Entry)
    (allowed : ∀ target, entry = .link target → isLinkName name = true) :
    (dir.put name entry allowed).node? other =
      if name = other then some entry else dir.node? other :=
  OrderedMap.find?_insert dir.entries name other entry

theorem node?_putFile (dir : RulesDir) (name other : String) (content : List UInt8) :
    (dir.putFile name content).node? other =
      if name = other then some (.file content) else dir.node? other :=
  node?_put dir name other _ _

theorem node?_putDirectory (dir : RulesDir) (name other : String) (rules : RuleSet) :
    (dir.putDirectory name rules).node? other =
      if name = other then some (.directory rules) else dir.node? other :=
  node?_put dir name other _ _

theorem isLinkName_of_link {dir : RulesDir} {name target : String}
    (found : dir.node? name = some (.link target)) : isLinkName name = true :=
  dir.linked name target found

/-- What `rename` does with a found source entry and the entry in its way. -/
def mayReplace (source : Entry) : Option Entry → Except Errno Unit
  | none => .ok ()
  | some (.directory rules) =>
      match source with
      | .directory _ => if rules.files.entries = [] then .ok () else .error .notEmpty
      | _ => .error .isDirectory
  | some _ =>
      match source with
      | .directory _ => .error .notDirectory
      | _ => .ok ()

/-- `rename(2)` of a file or a directory within the directory. -/
def rename (dir : RulesDir) (oldName newName : String) (plain : isLinkName oldName = false) :
    Except Errno RulesDir :=
  match found : dir.node? oldName with
  | none => .error .noEntry
  | some source =>
      if oldName = newName then .ok dir
      else
        (mayReplace source (dir.node? newName)).map fun _ =>
          (dir.erase oldName).put newName source (by
            rintro target rfl
            have named := isLinkName_of_link found
            rw [plain] at named
            cases named)

/-- `rename(2)` of `current.tmp` to `current`. -/
def swapCurrent (dir : RulesDir) : Except Errno RulesDir :=
  match dir.node? "current.tmp" with
  | none => .error .noEntry
  | some source =>
      (mayReplace source (dir.node? "current")).map fun _ =>
        (dir.erase "current.tmp").put "current" source fun _ _ => isLinkName_current

/-- `remove(3)`: a directory only goes when it is empty. -/
def removeEntry (dir : RulesDir) (name : String) : RulesDir :=
  match dir.node? name with
  | some (.directory rules) => if rules.files.entries = [] then dir.erase name else dir
  | _ => dir.erase name

/-- `symlink(2)` at `current.tmp`; an existing entry stays. -/
def linkCurrentTmp (dir : RulesDir) (target : String) : RulesDir :=
  match dir.node? "current.tmp" with
  | some _ => dir
  | none => dir.put "current.tmp" (.link target) fun _ _ => isLinkName_currentTmp

/-- An interrupted `remove_all` has removed some of a directory's files. -/
def removeSome (dir : RulesDir) (name : String) (progress : Nat) : RulesDir :=
  match dir.node? name with
  | some (.directory rules) => dir.putDirectory name (rules.without progress)
  | _ => dir

/-- Opening with truncation and writing; false when the file cannot be opened. -/
def writeFile (dir : RulesDir) (name : String) (content : List UInt8) : Bool × RulesDir :=
  match dir.node? name with
  | some (.directory _) => (false, dir)
  | some (.link _) => (false, dir)
  | _ => (true, dir.putFile name content)

/-- The same for a file inside a directory entry. -/
def writeInto (dir : RulesDir) (name file : String) (content : List UInt8) : RulesDir :=
  match dir.node? name with
  | some (.directory rules) =>
      dir.putDirectory name { rules with files := rules.files.insert file content }
  | _ => dir

/-- A write that failed or was cut off: nothing when the file was not opened,
else the bytes that reached it. -/
def cut (write : List UInt8 → RulesDir) (dir : RulesDir) (content : List UInt8) : Nat → RulesDir
  | 0 => dir
  | progress + 1 => write (content.take progress)

/-- Follow links to another kind of entry; forty hops is the kernel's limit. -/
def resolve (dir : RulesDir) : Nat → String → Option (String × Entry)
  | 0, _ => none
  | hops + 1, name =>
      match dir.node? name with
      | some (.link target) => resolve dir hops target
      | some entry => some (name, entry)
      | none => none

/-- The rule set the probes read, with the directory it lies in. -/
def active (dir : RulesDir) : Option (String × RuleSet) :=
  match dir.resolve 40 "current" with
  | some (name, .directory rules) => some (name, rules)
  | _ => none

end RulesDir

end Idsm.Managerd
