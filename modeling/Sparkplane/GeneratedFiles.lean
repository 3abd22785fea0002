import Mathlib
import Sparkplane.Wire
import Sparkplane.Tokens
import Sparkplane.Crash

/-!
# The generated client files

`generated_files.rs`: `publish` and `remove` for the two files that a coding client reads, and the receipt
that says which contents are their own. The receipt is kept as the document it holds, and its hashes as
digests of any type; the home directory is owned and its lock is free.
-/

namespace Sparkplane.Generated

/-- `FILES`. -/
inductive GenFile where
  | profile
  | catalog
  deriving DecidableEq

def files : List GenFile := [.profile, .catalog]

def schema : String := "sparkplane.generated-files/v1"

def maxBytes : Nat := 1024 * 1024

def managedKeys : List String :=
  ["model", "model_provider", "web_search", "name", "base_url", "env_key", "wire_api",
   "supports_standalone_web_search", "supports_websockets"]

structure Receipt (δ : Type) where
  schema : String
  /-- `files`; a name other than the two is refused. -/
  hashes : GenFile → Option (List δ)

inductive Slot where
  | absent
  | file (bytes : ByteArray)
  /-- A symbolic link, which is not opened. -/
  | link
  /-- Not a regular file of the user alone. -/
  | foreign

structure Home (δ : Type) where
  slot : GenFile → Slot
  receipt : Option (Receipt δ)

/-- `char::is_whitespace` and SHA-256. -/
structure Kit (δ : Type) where
  isWhitespace : Char → Bool
  sha256 : ByteArray → δ

/-! ## Foreign lines -/

/-- `split_inclusive('\n')`. -/
def splitInclusive : List Char → List (List Char)
  | [] => []
  | c :: cs =>
    if c = '\n' then [c] :: splitInclusive cs
    else match splitInclusive cs with
      | [] => [[c]]
      | line :: lines => (c :: line) :: lines

section
variable {δ : Type} [DecidableEq δ] (K : Kit δ)

def trim (s : List Char) : List Char :=
  ((s.dropWhile K.isWhitespace).reverse.dropWhile K.isWhitespace).reverse

def foreignAssignment (line : List Char) : Bool :=
  let trimmed := trim K line
  if trimmed.isEmpty || trimmed.head?.any fun c => c = '#' || c = '[' then false
  else
  if '=' ∈ trimmed then
    let key := trim K (trimmed.takeWhile (· ≠ '='))
    !key.isEmpty && (key.all fun c => isAsciiLowercase c || isAsciiUppercase c || isAsciiDigit c || c = '_') &&
      String.ofList key ∉ managedKeys
  else false

def keptText (text : String) : String :=
  String.ofList ((splitInclusive text.toList).filter fun line => !foreignAssignment K line).flatten

def withoutForeignAssignments (bytes : ByteArray) : ByteArray :=
  match String.fromUTF8? bytes with
  | none => bytes
  | some text => (keptText K text).toUTF8

def ownedDigest (bytes : ByteArray) (hashes : List δ) : Bool := K.sha256 bytes ∈ hashes

def stillOwned (name : GenFile) (bytes : ByteArray) (hashes : List δ) : Bool :=
  ownedDigest K bytes hashes || (name = .profile && ownedDigest K (withoutForeignAssignments K bytes) hashes)

end

/-! ## Effects -/

inductive GenError where
  /-- `generated file has unsafe ownership, type or size` -/
  | unsafeFile
  | invalidReceipt
  | payloadSize
  | conflict (name : GenFile) (action : String)
  | system
  deriving DecidableEq

inductive HomeOp (δ : Type) where
  | createHome
  | lock
  | readReceipt
  | read (name : GenFile)
  /-- A temporary file is written and synced. -/
  | stage
  | rename (name : GenFile) (bytes : ByteArray)
  | renameReceipt (receipt : Receipt δ)
  | syncHome
  | unlink (name : GenFile)

def HomeOp.Reply {δ : Type} : HomeOp δ → Type
  | .readReceipt => Except Unit (Option (Receipt δ))
  | .read _ => Except Unit Slot
  | _ => Except Unit Unit

section
variable {δ : Type}

abbrev Gen (δ α : Type) := ExceptT GenError (Prog (HomeOp δ) HomeOp.Reply) α

def orSystem {α : Type} (r : Except Unit α) : Gen δ α :=
  match r with
  | .ok a => pure a
  | .error () => throw .system

def createHome : Gen δ Unit := do orSystem (← ExceptT.lift (Prog.perform HomeOp.createHome))

def lock : Gen δ Unit := do orSystem (← ExceptT.lift (Prog.perform HomeOp.lock))

def readReceipt : Gen δ (Option (Receipt δ)) := do orSystem (← ExceptT.lift (Prog.perform HomeOp.readReceipt))

def readSlot (name : GenFile) : Gen δ Slot := do orSystem (← ExceptT.lift (Prog.perform (HomeOp.read name)))

def stage : Gen δ Unit := do orSystem (← ExceptT.lift (Prog.perform HomeOp.stage))

def rename (name : GenFile) (bytes : ByteArray) : Gen δ Unit := do
  orSystem (← ExceptT.lift (Prog.perform (HomeOp.rename name bytes)))

def renameReceipt (receipt : Receipt δ) : Gen δ Unit := do
  orSystem (← ExceptT.lift (Prog.perform (HomeOp.renameReceipt receipt)))

def syncHome : Gen δ Unit := do orSystem (← ExceptT.lift (Prog.perform HomeOp.syncHome))

def unlink (name : GenFile) : Gen δ Unit := do orSystem (← ExceptT.lift (Prog.perform (HomeOp.unlink name)))

def refuse (b : Bool) (e : GenError) : Gen δ Unit := if b then throw e else pure ()

/-! ## The two procedures -/

def read (name : GenFile) : Gen δ (Option ByteArray) := do
  match ← readSlot name with
  | .absent => return none
  | .link => throw .system
  | .foreign => throw .unsafeFile
  | .file bytes =>
    refuse (bytes.size > maxBytes) .unsafeFile
    return some bytes

def atomic (name : GenFile) (bytes : ByteArray) : Gen δ Unit := do
  stage
  rename name bytes
  syncHome

def atomicReceipt (receipt : Receipt δ) : Gen δ Unit := do
  stage
  renameReceipt receipt
  syncHome

def Receipt.empty : Receipt δ := ⟨Generated.schema, fun _ => none⟩

def Receipt.valid (r : Receipt δ) : Bool :=
  r.schema = Generated.schema && files.all fun name => (r.hashes name).all fun hashes => !hashes.isEmpty && hashes.length ≤ 2

def receipt : Gen δ (Receipt δ) := do
  let r := (← readReceipt).getD .empty
  refuse (!r.valid) .invalidReceipt
  return r

def Receipt.owned (r : Receipt δ) (name : GenFile) : List δ := (r.hashes name).getD []

def Receipt.insert (r : Receipt δ) (name : GenFile) (hashes : List δ) : Receipt δ :=
  { r with hashes := Function.update r.hashes name (some hashes) }

variable [DecidableEq δ] (K : Kit δ)

/-- One turn of the loop of `publish`: what is found under the name is checked and noted. -/
def claim (pending : Receipt δ) (name : GenFile) (bytes : ByteArray) : Gen δ (Receipt δ) := do
  let hash := K.sha256 bytes
  match ← read name with
  | none => return pending.insert name [hash]
  | some current =>
    refuse (!(current = bytes || stillOwned K name current (pending.owned name))) (.conflict name "overwrite")
    return pending.insert name (if K.sha256 current ≠ hash then [hash, K.sha256 current] else [hash])

/-- `committed`. -/
def receiptOf (profile catalog : ByteArray) : Receipt δ :=
  (Receipt.empty.insert .profile [K.sha256 profile]).insert .catalog [K.sha256 catalog]

/-- `publish` up to its first write. -/
def prepare (profile catalog : ByteArray) : Gen δ (Receipt δ) := do
  refuse (profile.size > maxBytes || catalog.size > maxBytes) .payloadSize
  createHome
  lock
  let pending ← receipt
  let pending ← claim K pending .profile profile
  claim K pending .catalog catalog

def publish (profile catalog : ByteArray) : Gen δ Unit := do
  let pending ← prepare K profile catalog
  atomicReceipt pending
  atomic .profile profile
  atomic .catalog catalog
  atomicReceipt (receiptOf K profile catalog)

/-- One turn of the first loop of `remove`: whether the file is there. -/
def release (r : Receipt δ) (name : GenFile) : Gen δ Bool := do
  match ← read name with
  | none => return false
  | some bytes =>
    refuse (!stillOwned K name bytes (r.owned name)) (.conflict name "remove")
    return true

def unlinkIf (present : Bool) (name : GenFile) : Gen δ Unit := if present then unlink name else pure ()

/-- `remove` up to its first write. -/
def inspect : Gen δ (Bool × Bool) := do
  lock
  let r ← receipt
  let profile ← release K r .profile
  let catalog ← release K r .catalog
  return (profile, catalog)

def remove : Gen δ Unit := do
  let present ← inspect K
  unlinkIf present.1 .profile
  unlinkIf present.2 .catalog
  atomicReceipt .empty

end

end Sparkplane.Generated
