import Idsm.Android.SignedBundle

/-! The answer of the Android snapshot manager to a negative acknowledgement. -/

set_option autoImplicit false

namespace Idsm.Android.LogSnapshot

def TTL_MS : Int := 24 * 3600 * 1000

/-- What the file system answers: whether the transfer's directory is there, behind the move
of a finished one, the text of its `meta.json`, and whether a text can be written there. -/
structure NackStore where
  present : Bool
  metaText : Option String
  writes : String → Bool

variable (library : OrgJson)

def parsed (text : String) : Option library.Object := (library.ofText text).toOption

/-- The indices to send again, in ascending order and without duplicates. -/
def missingIndices (total : Int) (missing : List Int) : List Int :=
  ((missing.filter fun index => 0 ≤ index ∧ index < total).mergeSort (· ≤ ·)).eraseDups

def saveMeta (store : NackStore) (record : library.Object) : Except Thrown Unit :=
  match library.indented record with
  | none => .error .json
  | some text => if store.writes text then .ok () else .error .file

/-- Behind the checks that `runCatching` guards. -/
def resend (store : NackStore) (record : library.Object) (missing : library.Array) :
    Except Thrown Bool :=
  match library.getInt record "total_chunks",
    (List.range (library.length missing)).mapM (library.intAt missing) with
  | none, _ => .error .json
  | some _, none => .error .json
  | some total, some asked =>
      let indices := missingIndices total asked
      if indices = [] then .ok false
      else (saveMeta library store (library.putInts record "next_chunks" indices)).map fun _ => true

/-- The record and the list of an acknowledgement that is not refused. -/
def admitted (store : NackStore) (nowMs : Int) (payload : String) :
    Option (library.Object × library.Array) := do
  let nack ← parsed library payload
  if library.optString nack "transfer_id" "" = "" then none
  else if store.present = false then none
  else
    let text ← store.metaText
    let record ← parsed library text
    if TTL_MS < nowMs - library.optLong record "created_ms" 0 then none
    else
      let missing ← library.getJSONArray nack "missing"
      some (record, missing)

def onNack (store : NackStore) (nowMs : Int) (payload : String) : Except Thrown Bool :=
  match admitted library store nowMs payload with
  | none => .ok false
  | some (record, missing) => resend library store record missing

end Idsm.Android.LogSnapshot
