import ConferWorker.Attestations
import ConferWorker.WatchedScripts

/-! `confer-worker-config`: the files of `/run/confer`, fetched and checked under temporary names
and moved to the names that the listener reads. Commands whose programs are not at hand are
outcomes; `set -e` makes the script end at the first one that fails. -/
namespace ConferWorker

namespace WorkerConfiguration

open Listener

/-- The status of a command that failed. -/
abbrev ExitStatus := ℕ

structure File where
  content : Bytes
  mode : ℕ
  deriving DecidableEq

/-- The directory, by the names in it. -/
abbrev Files := Str → Option File

abbrev Command := WatchedScript ExitStatus Files

/-- What a command writes to a file, after how many bytes the file was looked at meanwhile, and how
the command ended. A command that failed has written what it has written. -/
structure Transfer where
  content : Bytes
  progress : List ℕ
  status : Except ExitStatus Unit

/-- The outcomes of the commands of `fetch_release_evidence`; `mktemp` comes back with the suffix
that it settled on. -/
structure EvidenceCalls where
  mktemp : Except ExitStatus Str
  curl : Transfer
  wc : Except ExitStatus Unit
  python : Except ExitStatus Unit
  chmod : Except ExitStatus Unit
  mv : Except ExitStatus Unit
  rm : Except ExitStatus Unit

/-- The outcomes of the commands of `configure_worker`; `get_metadata` comes back with what it
printed. -/
structure ConfigureCalls where
  getMetadata : Except ExitStatus Bytes
  privateKey : Transfer
  publicKey : Transfer
  chmodPrivate : Except ExitStatus Unit
  chmodPublic : Except ExitStatus Unit
  mktemp : Except ExitStatus Str
  printf : List ℕ × Except ExitStatus Unit
  chmod : Except ExitStatus Unit
  mv : Except ExitStatus Unit
  cleanup : Except ExitStatus Unit
  manifest : EvidenceCalls
  bundle : EvidenceCalls

def instanceIdName : Str := ofString "instance-id"

def manifestName : Str := ofString "release-manifest.json"

def bundleName : Str := ofString "release-manifest.bundle.json"

def privateKeyName : Str := ofString "ssh_host_ed25519_key"

def publicKeyName : Str := ofString "ssh_host_ed25519_key.pub"

/-- A file with this content: a file that is there keeps its mode, and under the umask 0077 of the
unit a new one is for its owner only. -/
def put (name : Str) (content : Bytes) (files : Files) : Files :=
  Function.update files name (some ⟨content, ((files name).map File.mode).getD 0o600⟩)

def setMode (name : Str) (mode : ℕ) (files : Files) : Files :=
  Function.update files name ((files name).map (fun file => { file with mode := mode }))

def remove (name : Str) (files : Files) : Files := Function.update files name none

/-- `rename`, of a file that is there. -/
def rename (source destination : Str) (files : Files) : Files :=
  match files source with
  | none => files
  | some file => Function.update (remove source files) destination (some file)

/-- The file while it is written. -/
def writeParts (name : Str) (content : Bytes) : List ℕ → Command Unit
  | [] => pure ()
  | size :: progress => do
    Watched.change (put name (content.take size))
    writeParts name content progress

/-- A command whose output goes to a file. -/
def transfer (name : Str) (written : Transfer) : Command Unit := do
  writeParts name written.content written.progress
  Watched.change (put name written.content)
  Script.lift written.status

/-- A command on a file: it goes through, or leaves the directory as it is. -/
def change (outcome : Except ExitStatus Unit) (f : Files → Files) : Command Unit := do
  Script.lift outcome
  Watched.change f

/-- A command on a file that has to be there. -/
def changeFile (outcome : Except ExitStatus Unit) (name : Str) (f : Files → Files) :
    Command Unit := do
  Watched.look (fun files => if files name = none then .error 1 else .ok ())
  change outcome f

/-- `/bin/chmod`. -/
def chmod (outcome : Except ExitStatus Unit) (mode : ℕ) (name : Str) : Command Unit :=
  changeFile outcome name (setMode name mode)

/-- `/bin/mv`, within the directory. -/
def mv (outcome : Except ExitStatus Unit) (source destination : Str) : Command Unit :=
  changeFile outcome source (rename source destination)

/-- `/bin/rm -f`. -/
def rm (outcome : Except ExitStatus Unit) (name : Str) : Command Unit :=
  change outcome (remove name)

/-- `mktemp` makes a file that was not there. -/
def mktemp (outcome : Except ExitStatus Str) (destination : Str) : Command Str := do
  let suffix ← Script.lift outcome
  let name := destination++ofString "."++suffix
  Watched.look (fun files => if files name = none then .ok () else .error 1)
  Watched.change (Function.update · name (some ⟨[], 0o600⟩))
  pure name

def readFile (name : Str) : Command Bytes :=
  Watched.look (fun files => ((files name).map (fun file => Except.ok file.content)).getD (.error 1))

/-- `/bin/rm -f` and `return 1`. -/
def discard (outcome : Except ExitStatus Unit) (name : Str) : Command Unit := do
  rm outcome name
  Script.raise 1

/-- `ssh-keygen` asks before it overwrites a key, and nobody answers. -/
def sshKeygen (privateKey publicKey : Transfer) : Command Unit := do
  Watched.look (fun files => if files privateKeyName = none then .ok () else .error 1)
  transfer privateKeyName privateKey
  transfer publicKeyName publicKey

/-- `$(command)`: bash drops NUL bytes and the line feeds at the end. -/
def commandOutput (output : Bytes) : Bytes :=
  ((output.filter (· ≠ 0)).reverse.dropWhile (· = 0x0A)).reverse

/-- `[[ "$1" =~ ^[0-9]+$ ]]`. -/
def requireInstanceId (instanceId : Bytes) : Except ExitStatus Unit :=
  if instanceId ≠ [] ∧ instanceId.all (fun c => 0x30 ≤ c && c ≤ 0x39) = true then .ok ()
  else .error 1

/-- The size check of `fetch_release_evidence`. -/
def requireSize (calls : EvidenceCalls) (temporaryFile : Str) : Command Unit := do
  let content ← readFile temporaryFile
  Script.lift calls.wc
  if content.length = 0 ∨ 32*1024 < content.length then discard calls.rm temporaryFile
  else pure ()

/-- Its check that Python reads the file as UTF-8. -/
def requireText (calls : EvidenceCalls) (temporaryFile : Str) : Command Unit :=
  Watched.orElse (do
    let content ← readFile temporaryFile
    Script.lift (if (decodeUtf8 content).isNone then .error 1 else calls.python))
    (discard calls.rm temporaryFile)

/-- `fetch_release_evidence`. -/
def fetchReleaseEvidence (calls : EvidenceCalls) (destination : Str) : Command Unit := do
  let temporaryFile ← mktemp calls.mktemp destination
  Watched.orElse (transfer temporaryFile calls.curl) (discard calls.rm temporaryFile)
  requireSize calls temporaryFile
  requireText calls temporaryFile
  chmod calls.chmod 0o444 temporaryFile
  mv calls.mv temporaryFile destination

/-- What comes after `trap "$cleanup" EXIT`. -/
def publish (calls : ConfigureCalls) (instanceId : Bytes) (temporaryInstanceId : Str) :
    Command Unit := do
  transfer temporaryInstanceId ⟨instanceId++[0x0A], calls.printf.1, calls.printf.2⟩
  chmod calls.chmod 0o444 temporaryInstanceId
  mv calls.mv temporaryInstanceId instanceIdName
  fetchReleaseEvidence calls.manifest manifestName
  fetchReleaseEvidence calls.bundle bundleName

/-- `configure_worker`. -/
def configureWorker (calls : ConfigureCalls) : Command Unit := do
  let output ← Script.lift calls.getMetadata
  let instanceId := commandOutput output
  Script.lift (requireInstanceId instanceId)
  sshKeygen calls.privateKey calls.publicKey
  chmod calls.chmodPrivate 0o600 privateKeyName
  chmod calls.chmodPublic 0o644 publicKeyName
  let temporaryInstanceId ← mktemp calls.mktemp instanceIdName
  (publish calls instanceId temporaryInstanceId).andFinally
    (rm calls.cleanup temporaryInstanceId)

end WorkerConfiguration

end ConferWorker
