import Distgard.Lib.Base64
import Distgard.Lib.HashMap
import Distgard.Lib.Run
import Distgard.Lib.Text
import Distgard.Quintet.Channels

/-!
# Known hosts

A client that trusts certificates on first use keeps the fingerprints of the servers it knows in a
file, one line for each: the name of the server, a space, and the fingerprint in base 64. The task of a
connection loads the file, some time after the connection is opened. When the certificate of the server
has come it is looked up in what was loaded; what is done then, or whether the user is asked, depends on
whether the name is unknown, or known with this fingerprint or with another one. To store a fingerprint
the task empties the file and writes it anew, with what it had loaded and the new line.

## The model

A certificate is its fingerprint. How names and bytes are shown and read is a parameter, as it is the
business of other crates (`HostFormat`). A client has files, and connections in the order in which they
were opened; a connection that is opened again is a new one. Their tasks take their steps in any order: a
file is read piece by piece, and written piece by piece, each task at its own place in the file, so that
one can read what another has written half of. Hash maps are iterated in an arbitrary order. A disk that
fails, a client that ends while a file is being written, a file with two paths, and a text that is not UTF-8,
are left out.

## What is proved

* `load_store` — what was stored is loaded, in whatever order it was written.
* `known_stays` — once a file has the fingerprint of a server and no connection that has loaded it waits
  for its certificate, it keeps it, as long as nobody reads or writes the file while another one writes
  it, and the user and the configuration do not trust certificates that are not those known; and no
  connection accepts another certificate of that server.
* `overlapping_forget` — a connection that stores a fingerprint leaves a file that does not have the
  servers that it had not loaded, whoever has stored them since.
-/

namespace Distgard.Quintet

open Lib

/-- The file of known hosts, if no other is named. -/
def DEFAULT_KNOWN_HOSTS_FILE : String := "Quintet/known_hosts"

/-- The hash of a certificate. -/
structure CertificateFingerprint where
  /-- The bytes of the hash. -/
  bytes : Bytes
  /-- There are 32 of them. -/
  length_bytes : bytes.length = 32
  deriving DecidableEq

/-- How names and bytes are shown and read. -/
structure HostFormat (Name : Type*) where
  /-- The text for a name. -/
  display : Name → List Char
  /-- The name in a text. -/
  tryFrom : List Char → Option Name
  /-- The text for bytes. -/
  encode : Bytes → List Char
  /-- The bytes in a text. -/
  decode : List Char → Option Bytes

/-- White space, as it separates words. -/
def isWhitespace (c : Char) : Bool :=
  let n := c.toNat
  decide (9 ≤ n ∧ n ≤ 13) || decide (0x2000 ≤ n ∧ n ≤ 0x200A) ||
    [0x20, 0x85, 0xA0, 0x1680, 0x2028, 0x2029, 0x202F, 0x205F, 0x3000].contains n

/-- A text that is a word in a line. -/
def IsWord (text : List Char) : Prop := text ≠ [] ∧ ∀ c ∈ text, isWhitespace c = false

/-- What is shown is a word, and is read as what it was. -/
structure HostFormat.Lawful {Name : Type*} (format : HostFormat Name) : Prop where
  /-- A name is shown as a word. -/
  display_isWord : ∀ name, IsWord (format.display name)
  /-- It is read. -/
  tryFrom_display : ∀ name, format.tryFrom (format.display name) = some name
  /-- Bytes are shown as a word. -/
  encode_isWord : ∀ bytes : Bytes, bytes ≠ [] → IsWord (format.encode bytes)
  /-- They are read. -/
  decode_encode : ∀ bytes, format.decode (format.encode bytes) = some bytes

/-- The fingerprints of the servers that are known. -/
abbrev CertStore (Name : Type*) := HashMap Name CertificateFingerprint

/-- Where they are kept. -/
inductive KnownHosts (Name : Type*) where
  /-- In memory. -/
  | Store (store : CertStore Name)
  /-- In a file. -/
  | HostsFile (file : String)

/-- What is found out about a certificate. -/
inductive CertVerificationStatus where
  /-- The server is not known. -/
  | UnknownCertificate
  /-- It is known with another fingerprint. -/
  | UntrustedCertificate
  /-- It is known with this fingerprint. -/
  | TrustedCertificate
  deriving DecidableEq

/-- What can be done then. -/
inductive CertVerifierAction where
  /-- Abort the connection. -/
  | AbortConnection
  /-- Accept the certificate. -/
  | TrustOnce
  /-- Accept and store it. -/
  | TrustAndStore
  deriving DecidableEq

/-- Who decides. -/
inductive CertVerifierBehaviour where
  /-- The user is asked. -/
  | RequestClientAction
  /-- It is decided already. -/
  | ImmediateAction (action : CertVerifierAction)
  deriving DecidableEq

/-- The certificate of a server. -/
structure CertVerificationInfo (Name : Type*) where
  /-- The name of the server. -/
  serverName : Name
  /-- The fingerprint of the certificate that has come. -/
  fingerprint : CertificateFingerprint
  /-- The one that was known. -/
  knownFingerprint : Option CertificateFingerprint

/-- How certificates are verified. -/
structure TrustOnFirstUseConfig (Name : Type*) where
  /-- The servers that are known. -/
  knownHosts : KnownHosts Name
  /-- What is done about a certificate. -/
  verifierBehaviour : HashMap CertVerificationStatus CertVerifierBehaviour

/-- The configuration by default. -/
def TrustOnFirstUseConfig.default (Name : Type*) : TrustOnFirstUseConfig Name where
  knownHosts := .HostsFile DEFAULT_KNOWN_HOSTS_FILE
  verifierBehaviour := HashMap.insertAll [
    (.UnknownCertificate, .ImmediateAction .TrustAndStore),
    (.UntrustedCertificate, .RequestClientAction),
    (.TrustedCertificate, .ImmediateAction .TrustOnce)] ∅

/-- What the verifier tells the client. -/
inductive CertMessage (Name : Type*) where
  /-- The user is to decide. -/
  | CertificateInteractionRequest (status : CertVerificationStatus) (info : CertVerificationInfo Name)
  /-- A certificate is trusted from now on. -/
  | CertificateTrustUpdate (info : CertVerificationInfo Name)
  /-- The connection is aborted. -/
  | CertificateConnectionAbort (status : CertVerificationStatus) (info : CertVerificationInfo Name)

/-- Why a file of known hosts is not read. -/
inductive HostsFileError where
  /-- A line does not have two words, or a fingerprint not its length. -/
  | InvalidHostFile
  /-- A word is no name of a server. -/
  | InvalidName
  /-- A word is not in base 64. -/
  | InvalidBase64
  deriving DecidableEq

section

variable {Name : Type*} [DecidableEq Name] (format : HostFormat Name)

/-- Write known hosts, in the order in which they come. -/
def storeKnownHostsToFile (entries : List (Name × CertificateFingerprint)) : List Char :=
  Text.writelns (entries.map fun entry => format.display entry.1 ++ ' ' :: format.encode entry.2.bytes)

/-- Read a line: two words, and perhaps more. -/
def parseKnownHostLine (line : List Char) : Except HostsFileError (Name × CertificateFingerprint) :=
  match Text.words isWhitespace line with
  | [] => .error .InvalidHostFile
  | adrStr :: rest =>
    match format.tryFrom adrStr with
    | none => .error .InvalidName
    | some servName =>
      match rest with
      | [] => .error .InvalidHostFile
      | fingerprintB64 :: _ =>
        match format.decode fingerprintB64 with
        | none => .error .InvalidBase64
        | some fingerprintBytes =>
          if h : fingerprintBytes.length = 32 then .ok (servName, ⟨fingerprintBytes, h⟩) else .error .InvalidHostFile

/-- Put the host in a line among the others. -/
def loadLine (store : CertStore Name) (line : List Char) : Except HostsFileError (CertStore Name) :=
  match parseKnownHostLine format line with
  | .ok entry => .ok (store.insert entry.1 entry.2)
  | .error err => .error err

/-- Read a file of known hosts. -/
def loadKnownHostsFromFile (text : List Char) : Except HostsFileError (CertStore Name) :=
  (Text.lines text).foldlM (loadLine format) ∅

/-- The files, by their paths. -/
abbrev HostFiles := HashMap String (List Char)

/-- A verifier of certificates. -/
structure TofuServerVerification (Name : Type*) where
  /-- The servers that are known. -/
  store : CertStore Name
  /-- What is done about a certificate. -/
  verifierBehaviour : HashMap CertVerificationStatus CertVerifierBehaviour
  /-- The file that new ones are stored in. -/
  hostsFile : Option String

namespace TofuServerVerification

/-- What is known about a certificate. -/
def certInfo (v : TofuServerVerification Name) (serverName : Name) (fingerprint : CertificateFingerprint) :
    CertVerificationInfo Name := ⟨serverName, fingerprint, v.store.lookup serverName⟩

/-- What that means. -/
def status (info : CertVerificationInfo Name) : CertVerificationStatus :=
  match info.knownFingerprint with
  | some knownFingerprint =>
    if knownFingerprint = info.fingerprint then .TrustedCertificate else .UntrustedCertificate
  | none => .UnknownCertificate

/-- What is done about it. -/
def behaviour (v : TofuServerVerification Name) (status : CertVerificationStatus) : CertVerifierBehaviour :=
  (v.verifierBehaviour.lookup status).getD (.ImmediateAction .AbortConnection)

end TofuServerVerification

end

/-! ### The client -/

/-- How far the task of a connection is. -/
inductive Stage (Name : Type*) where
  /-- It has not begun. -/
  | opened (config : TrustOnFirstUseConfig Name)
  /-- It has read a first part of a file. -/
  | loading (verifierBehaviour : HashMap CertVerificationStatus CertVerifierBehaviour) (file : String)
      (got : List Char)
  /-- It waits for the certificate. -/
  | started (verifier : TofuServerVerification Name)
  /-- The user is asked. -/
  | waiting (verifier : TofuServerVerification Name) (status : CertVerificationStatus)
      (info : CertVerificationInfo Name)
  /-- It has written a first part of its file, up to a place, and has the rest still to write. -/
  | storing (verifier : TofuServerVerification Name) (info : CertVerificationInfo Name) (pos : ℕ) (rest : List Char)
  /-- The certificate is accepted. -/
  | accepted (verifier : TofuServerVerification Name) (info : CertVerificationInfo Name)
  /-- The connection has failed, or is closed. -/
  | failed

/-- A client with its files. -/
structure Hosts (Name : Type*) where
  /-- The files. -/
  files : HostFiles
  /-- The connections, in the order in which they were opened. -/
  connections : List (Stage Name)
  /-- What the verifiers have told the client, oldest first. -/
  messages : List (CertMessage Name)

/-- What can happen to a client. -/
inductive HostsEvent (Name : Type*) where
  /-- A connection is opened. -/
  | openConnection (config : TrustOnFirstUseConfig Name)
  /-- Its task begins. -/
  | load (i : ℕ)
  /-- It reads on in the file. -/
  | read (i n : ℕ)
  /-- The certificate of a server comes; there may be room to tell the client of it. -/
  | verify (i : ℕ) (serverName : Name) (fingerprint : CertificateFingerprint) (room : Bool)
  /-- The user decides. -/
  | applyAction (i : ℕ) (action : CertVerifierAction) (room : Bool)
  /-- The task writes on in the file. -/
  | write (i n : ℕ)
  /-- It has written the file. -/
  | stored (i : ℕ) (room : Bool)
  /-- It ends, not while it writes. -/
  | close (i : ℕ)

/-- Write at a place of a text; what there is between its end and the place are zeros. -/
def writeAt (text : List Char) (pos : ℕ) (chunk : List Char) : List Char :=
  text.take pos ++ List.replicate (pos - text.length) '\x00' ++ chunk ++ text.drop (pos + chunk.length)

/-- Writing at the end of a text. -/
@[simp] theorem writeAt_length (text chunk : List Char) : writeAt text text.length chunk = text ++ chunk := by
  simp [writeAt]

namespace Hosts

variable {Name : Type*} [DecidableEq Name] (format : HostFormat Name)

/-- Load known hosts, and the file that new ones are stored in: a file that does not exist has none, and one
that does is opened. -/
def loadKnownHostsStoreFromConfig (files : HostFiles) (config : TrustOnFirstUseConfig Name) : Stage Name :=
  match config.knownHosts with
  | .Store store => .started ⟨store, config.verifierBehaviour, none⟩
  | .HostsFile file =>
    if file ∈ files then .loading config.verifierBehaviour file []
    else .started ⟨∅, config.verifierBehaviour, some file⟩

/-- A connection goes on to another stage. -/
def goOn (s : Hosts Name) (i : ℕ) (stage : Stage Name) : Hosts Name :=
  { s with connections := s.connections.set i stage }

/-- Tell the client something, if there is room. -/
def tell (s : Hosts Name) (message : CertMessage Name) (room : Bool) : Hosts Name :=
  { s with messages := s.messages ++ if room then [message] else [] }

/-- Tell the client that a certificate is trusted from now on, and accept it if there is room for that. -/
def trust (s : Hosts Name) (i : ℕ) (v : TofuServerVerification Name) (info : CertVerificationInfo Name) (room : Bool) :
    Hosts Name :=
  (s.goOn i (if room then .accepted v info else .failed)).tell (.CertificateTrustUpdate info) room

/-- Take an action. To store a certificate the file is created anew; known hosts are written in some order. -/
def applyVerifierImmediateAction (order : ∀ m : CertStore Name, HashMap.Iter m) (s : Hosts Name) (i : ℕ)
    (v : TofuServerVerification Name) (action : CertVerifierAction) (status : CertVerificationStatus)
    (info : CertVerificationInfo Name) (room : Bool) : Hosts Name :=
  match action with
  | .AbortConnection => (s.goOn i .failed).tell (.CertificateConnectionAbort status info) room
  | .TrustOnce => s.goOn i (.accepted v info)
  | .TrustAndStore =>
    match v.hostsFile with
    | some file =>
      goOn { s with files := s.files.insert file [] } i (.storing v info 0
        (storeKnownHostsToFile format (order (v.store.insert info.serverName info.fingerprint)).entries))
    | none => s.trust i v info room

/-- What an event does, if it can happen. A request of the user's decision that the client cannot be told is
a panic, and so is a file of known hosts that cannot be read: the connection fails. -/
def step (order : ∀ m : CertStore Name, HashMap.Iter m) (s : Hosts Name) : HostsEvent Name → Option (Hosts Name)
  | .openConnection config => some { s with connections := s.connections ++ [.opened config] }
  | .load i =>
    match s.connections[i]? with
    | some (.opened config) => some (s.goOn i (loadKnownHostsStoreFromConfig s.files config))
    | _ => none
  | .read i n =>
    match s.connections[i]? with
    | some (.loading verifierBehaviour file got) =>
      match ((s.files.lookup file).getD []).drop got.length with
      | [] =>
        match loadKnownHostsFromFile format got with
        | .ok store => some (s.goOn i (.started ⟨store, verifierBehaviour, some file⟩))
        | .error _ => some (s.goOn i .failed)
      | c :: cs => some (s.goOn i (.loading verifierBehaviour file (got ++ (c :: cs).take (n + 1))))
    | _ => none
  | .verify i serverName fingerprint room =>
    match s.connections[i]? with
    | some (.started v) =>
      let info := v.certInfo serverName fingerprint
      let status := TofuServerVerification.status info
      match v.behaviour status with
      | .ImmediateAction action => some (s.applyVerifierImmediateAction format order i v action status info room)
      | .RequestClientAction =>
        some ((s.goOn i (if room then .waiting v status info else .failed)).tell
          (.CertificateInteractionRequest status info) room)
    | _ => none
  | .applyAction i action room =>
    match s.connections[i]? with
    | some (.waiting v status info) => some (s.applyVerifierImmediateAction format order i v action status info room)
    | _ => none
  | .write i n =>
    match s.connections[i]? with
    | some (.storing v info pos (c :: cs)) =>
      v.hostsFile.map fun file =>
        let chunk := (c :: cs).take (n + 1)
        goOn { s with files := s.files.insert file (writeAt ((s.files.lookup file).getD []) pos chunk) } i
          (.storing v info (pos + chunk.length) ((c :: cs).drop (n + 1)))
    | _ => none
  | .stored i room =>
    match s.connections[i]? with
    | some (.storing v info _ []) => some (s.trust i v info room)
    | _ => none
  | .close i =>
    match s.connections[i]? with
    | some (.storing ..) | none => none
    | some _ => some (s.goOn i .failed)

/-- An event happens, with hash maps iterated in some order. -/
def Happens (s : Hosts Name) (event : HostsEvent Name) (s' : Hosts Name) : Prop :=
  ∃ order, s.step format order event = some s'

/-- A file has the fingerprint of a server. -/
def Knows (s : Hosts Name) (file : String) (host : Name) (fingerprint : CertificateFingerprint) : Prop :=
  ∃ text store, s.files.lookup file = some text ∧ loadKnownHostsFromFile format text = .ok store ∧
    store.lookup host = some fingerprint

end Hosts

namespace Stage

variable {Name : Type*}

/-- The task is writing a file. -/
def Stores (file : String) : Stage Name → Prop
  | .storing v _ _ _ => v.hostsFile = some file
  | _ => False

/-- The task is reading a file. -/
def Loads (file : String) : Stage Name → Prop
  | .loading _ file' _ => file' = file
  | _ => False

/-- The task has loaded a file, or is about to, and has not accepted a certificate. -/
def Pending (file : String) : Stage Name → Prop
  | .loading _ file' _ => file' = file
  | .started v | .waiting v _ _ | .storing v _ _ _ => v.hostsFile = some file
  | _ => False

end Stage

namespace Hosts

variable {Name : Type*} [DecidableEq Name]

/-- The file that a task begins to write. -/
def writes (s : Hosts Name) : HostsEvent Name → Option String
  | .verify i serverName fingerprint _ =>
    match s.connections[i]? with
    | some (.started v) =>
      if v.behaviour (TofuServerVerification.status (v.certInfo serverName fingerprint)) =
          .ImmediateAction .TrustAndStore then v.hostsFile
      else none
    | _ => none
  | .applyAction i action _ =>
    match s.connections[i]? with
    | some (.waiting v _ _) => if action = .TrustAndStore then v.hostsFile else none
    | _ => none
  | _ => none

/-- The configuration of a task that begins to read a file. -/
def reads (file : String) (s : Hosts Name) : HostsEvent Name → Option (TrustOnFirstUseConfig Name)
  | .load i =>
    match s.connections[i]? with
    | some (.opened config) =>
      match config.knownHosts with
      | .HostsFile file' => if file' = file then some config else none
      | .Store _ => none
    | _ => none
  | _ => none

/-- Nobody begins to read or to write a file while another one writes it, or to write it while another one
reads it. -/
def Apart (file : String) (s : Hosts Name) (event : HostsEvent Name) : Prop :=
  (s.writes event = some file → ∀ c ∈ s.connections, ¬ c.Stores file ∧ ¬ c.Loads file) ∧
    (s.reads file event ≠ none → ∀ c ∈ s.connections, ¬ c.Stores file)

/-- Nothing is decided about untrusted certificates but to abort the connection. -/
def Cautious (verifierBehaviour : HashMap CertVerificationStatus CertVerifierBehaviour) : Prop :=
  ∀ action, verifierBehaviour.lookup .UntrustedCertificate = some (.ImmediateAction action) → action = .AbortConnection

/-- The user and the configuration of a connection do not trust a certificate of the host that is not
the one that is known. -/
def Careful (file : String) (host : Name) (s : Hosts Name) (event : HostsEvent Name) : Prop :=
  (∀ config, s.reads file event = some config → Cautious config.verifierBehaviour) ∧
    ∀ i action room v info, event = .applyAction i action room →
      s.connections[i]? = some (.waiting v .UntrustedCertificate info) → v.hostsFile = some file →
      info.serverName = host → action = .AbortConnection

end Hosts

/-! ### What was stored is loaded -/

section

variable {Name : Type*} [DecidableEq Name] {format : HostFormat Name}

omit [DecidableEq Name] in
/-- A line that was written is read. -/
theorem parse_line (hf : format.Lawful) (name : Name) (fingerprint : CertificateFingerprint) :
    parseKnownHostLine format (format.display name ++ ' ' :: format.encode fingerprint.bytes) = .ok (name, fingerprint) := by
  obtain ⟨hname, hplain⟩ := hf.display_isWord name
  have hbytes : fingerprint.bytes ≠ [] := by
    intro hnil
    have hlength := fingerprint.length_bytes
    simp [hnil] at hlength
  obtain ⟨hcode, hplain'⟩ := hf.encode_isWord fingerprint.bytes hbytes
  rw [parseKnownHostLine, Text.words_pair hplain hname hplain' hcode (by decide)]
  simp only [hf.tryFrom_display, hf.decode_encode, fingerprint.length_bytes, dite_true]

omit [DecidableEq Name] in
/-- Lines have no line feeds, and no carriage returns at their ends. -/
theorem line_isLine (hf : format.Lawful) (name : Name) (fingerprint : CertificateFingerprint) :
    '\n' ∉ format.display name ++ ' ' :: format.encode fingerprint.bytes ∧
      (format.display name ++ ' ' :: format.encode fingerprint.bytes).getLast? ≠ some '\r' := by
  have hbytes : fingerprint.bytes ≠ [] := by
    intro hnil
    have hlength := fingerprint.length_bytes
    simp [hnil] at hlength
  have hplain : ∀ c ∈ format.display name ++ ' ' :: format.encode fingerprint.bytes, c = ' ' ∨ isWhitespace c = false := by
    intro c hc
    rcases List.mem_append.mp hc with hc | hc
    · exact .inr ((hf.display_isWord name).2 c hc)
    · rcases List.mem_cons.mp hc with hc | hc
      · exact .inl hc
      · exact .inr ((hf.encode_isWord fingerprint.bytes hbytes).2 c hc)
  have hnot : ∀ c, isWhitespace c = true → c ≠ ' ' →
      c ∉ format.display name ++ ' ' :: format.encode fingerprint.bytes := by
    intro c hc hne hmem
    rcases hplain c hmem with h | h
    · exact hne h
    · rw [hc] at h
      cases h
  exact ⟨hnot '\n' (by decide) (by decide), fun h => hnot '\r' (by decide) (by decide) (List.mem_of_getLast? h)⟩

/-- **What was stored is loaded**, in whatever order it was written. -/
theorem load_store (hf : format.Lawful) {store : CertStore Name} (it : HashMap.Iter store) :
    loadKnownHostsFromFile format (storeKnownHostsToFile format it.entries) = .ok store := by
  have hload : ∀ (entries : List (Name × CertificateFingerprint)) (acc : CertStore Name),
      (entries.map fun entry => format.display entry.1 ++ ' ' :: format.encode entry.2.bytes).foldlM (loadLine format) acc =
        .ok (HashMap.insertAll entries acc) := by
    intro entries
    induction entries with
    | nil => exact fun _ => rfl
    | cons entry entries ih =>
      intro acc
      rw [List.map_cons, List.foldlM_cons, loadLine, parse_line hf]
      exact ih _
  have hlines : Text.lines (storeKnownHostsToFile format it.entries) =
      it.entries.map fun entry => format.display entry.1 ++ ' ' :: format.encode entry.2.bytes := by
    refine Text.lines_writelns fun l hl => ?_
    obtain ⟨entry, -, rfl⟩ := List.mem_map.mp hl
    exact line_isLine hf entry.1 entry.2
  rw [loadKnownHostsFromFile, hlines, hload,
    (it.insertAll_eq_iff ∅).mpr fun _ hk => absurd hk Finmap.notMem_empty]

end

/-! ### What a step can be -/

namespace Hosts

variable {Name : Type*} [DecidableEq Name] {format : HostFormat Name} {s s' : Hosts Name} {event : HostsEvent Name}
  {file : String}

/-- A certificate has come to a task, and an action is taken. -/
inductive Decides (s : Hosts Name) (event : HostsEvent Name) :
    Stage Name → TofuServerVerification Name → CertVerificationInfo Name → CertVerifierAction → Prop
  /-- It is decided already. -/
  | verify {v : TofuServerVerification Name} {serverName : Name} {fingerprint : CertificateFingerprint}
      {action : CertVerifierAction} :
      v.behaviour (TofuServerVerification.status (v.certInfo serverName fingerprint)) = .ImmediateAction action →
      Decides s event (.started v) v (v.certInfo serverName fingerprint) action
  /-- The user decides. -/
  | applyAction {i : ℕ} {v : TofuServerVerification Name} {status : CertVerificationStatus}
      {info : CertVerificationInfo Name} {action : CertVerifierAction} {room : Bool} :
      event = .applyAction i action room → s.connections[i]? = some (.waiting v status info) →
      Decides s event (.waiting v status info) v info action

/-- A step of a task: the stage before it, the files after it, and the stage after it. -/
inductive Goes (format : HostFormat Name) (s : Hosts Name) (event : HostsEvent Name) :
    Stage Name → HostFiles → Stage Name → Prop
  /-- The task begins. -/
  | load {config : TrustOnFirstUseConfig Name} :
      (∀ file, config.knownHosts = .HostsFile file → s.reads file event = some config) →
      Goes format s event (.opened config) s.files (loadKnownHostsStoreFromConfig s.files config)
  /-- It reads on. -/
  | readOn {verifierBehaviour : HashMap CertVerificationStatus CertVerifierBehaviour} {file : String}
      {got chunk : List Char} :
      (got <+: (s.files.lookup file).getD [] → got ++ chunk <+: (s.files.lookup file).getD []) →
      Goes format s event (.loading verifierBehaviour file got) s.files (.loading verifierBehaviour file (got ++ chunk))
  /-- It has read the file. -/
  | readAll {verifierBehaviour : HashMap CertVerificationStatus CertVerifierBehaviour} {file : String}
      {got : List Char} {store : CertStore Name} :
      ((s.files.lookup file).getD []).drop got.length = [] → loadKnownHostsFromFile format got = .ok store →
      Goes format s event (.loading verifierBehaviour file got) s.files (.started ⟨store, verifierBehaviour, some file⟩)
  /-- The user is asked. -/
  | ask {v : TofuServerVerification Name} {serverName : Name} {fingerprint : CertificateFingerprint} :
      Goes format s event (.started v) s.files (.waiting v
        (TofuServerVerification.status (v.certInfo serverName fingerprint)) (v.certInfo serverName fingerprint))
  /-- A certificate is accepted. -/
  | accept {c : Stage Name} {v : TofuServerVerification Name} {info : CertVerificationInfo Name}
      {action : CertVerifierAction} : Decides s event c v info action → action ≠ .AbortConnection →
      Goes format s event c s.files (.accepted v info)
  /-- A file is created. -/
  | create {c : Stage Name} {v : TofuServerVerification Name} {info : CertVerificationInfo Name} {file : String} :
      Decides s event c v info .TrustAndStore → v.hostsFile = some file → s.writes event = some file →
      ∀ it : HashMap.Iter (v.store.insert info.serverName info.fingerprint),
        Goes format s event c (s.files.insert file [])
          (.storing v info 0 (storeKnownHostsToFile format it.entries))
  /-- It is written. -/
  | write {v : TofuServerVerification Name} {info : CertVerificationInfo Name} {pos : ℕ} {chunk rest : List Char}
      {file : String} : v.hostsFile = some file →
      Goes format s event (.storing v info pos (chunk ++ rest))
        (s.files.insert file (writeAt ((s.files.lookup file).getD []) pos chunk))
        (.storing v info (pos + chunk.length) rest)
  /-- It has been written. -/
  | stored {v : TofuServerVerification Name} {info : CertVerificationInfo Name} {pos : ℕ} :
      Goes format s event (.storing v info pos []) s.files (.accepted v info)
  /-- The connection fails, not while a file is written. -/
  | fail {c : Stage Name} : (∀ v info pos rest, c = .storing v info pos rest → rest = []) →
      Goes format s event c s.files .failed

/-- What an action does. -/
theorem goes_applyVerifierImmediateAction (order : ∀ m : CertStore Name, HashMap.Iter m) (i : ℕ) {c : Stage Name}
    {v : TofuServerVerification Name} {action : CertVerifierAction} (status : CertVerificationStatus)
    {info : CertVerificationInfo Name} (room : Bool) (hdecides : Decides s event c v info action)
    (hwrites : ∀ file, action = .TrustAndStore → v.hostsFile = some file → s.writes event = some file) :
    ∃ c', Goes format s event c (s.applyVerifierImmediateAction format order i v action status info room).files c' ∧
      (s.applyVerifierImmediateAction format order i v action status info room).connections =
        s.connections.set i c' := by
  have hfail : Goes format s event c s.files .failed := by
    refine .fail fun v' info' pos rest hc => ?_
    subst hc
    cases hdecides
  cases action with
  | AbortConnection => exact ⟨_, hfail, rfl⟩
  | TrustOnce => exact ⟨_, .accept hdecides (by decide), rfl⟩
  | TrustAndStore =>
    rw [applyVerifierImmediateAction]
    split
    · next file hfile => exact ⟨_, .create hdecides hfile (hwrites file rfl hfile) _, rfl⟩
    · cases room with
      | false => exact ⟨_, hfail, rfl⟩
      | true => exact ⟨_, .accept hdecides (by decide), rfl⟩

/-- **What an event does**: a connection is opened, or the task of one makes a step. -/
theorem step_goes {order : ∀ m : CertStore Name, HashMap.Iter m} (h : s.step format order event = some s') :
    (∃ config, s'.files = s.files ∧ s'.connections = s.connections ++ [.opened config]) ∨
      ∃ i c c', s.connections[i]? = some c ∧ Goes format s event c s'.files c' ∧
        s'.connections = s.connections.set i c' := by
  cases event with
  | openConnection config =>
    cases h
    exact .inl ⟨config, rfl, rfl⟩
  | load i =>
    rw [step] at h
    split at h
    · next config hi =>
      cases h
      refine .inr ⟨i, _, _, hi, .load fun file hconfig => ?_, rfl⟩
      simp [reads, hi, hconfig]
    · cases h
  | read i n =>
    rw [step] at h
    split at h
    · next verifierBehaviour file got hi =>
      split at h
      · next hall =>
        split at h
        · next store hload =>
          cases h
          exact .inr ⟨i, _, _, hi, .readAll hall hload, rfl⟩
        · cases h
          exact .inr ⟨i, _, _, hi, .fail (by simp), rfl⟩
      · next char chars hmore =>
        cases h
        refine .inr ⟨i, _, _, hi, .readOn fun hprefix => ?_, rfl⟩
        obtain ⟨rest, hrest⟩ := hprefix
        rw [← hrest, List.drop_left] at hmore
        rw [← hrest, hmore]
        exact (List.prefix_append_right_inj got).mpr (List.take_prefix _ _)
    · cases h
  | verify i serverName fingerprint room =>
    rw [step] at h
    split at h
    · next v hi =>
      dsimp only at h
      split at h
      · next action hbehaviour =>
        cases h
        have hdecides : Decides s (.verify i serverName fingerprint room) (.started v) v _ action := .verify hbehaviour
        obtain ⟨c', hgoes, hconnections⟩ := goes_applyVerifierImmediateAction order i _ room hdecides
          fun file haction hfile => by simp [writes, hi, hbehaviour, haction, hfile]
        exact .inr ⟨i, _, c', hi, hgoes, hconnections⟩
      · cases h
        cases room with
        | false => exact .inr ⟨i, _, _, hi, .fail (by simp), rfl⟩
        | true => exact .inr ⟨i, _, _, hi, .ask, rfl⟩
    · cases h
  | applyAction i action room =>
    rw [step] at h
    split at h
    · next v status info hi =>
      cases h
      obtain ⟨c', hgoes, hconnections⟩ := goes_applyVerifierImmediateAction order i status room
        (Decides.applyAction rfl hi) fun file haction hfile => by simp [writes, hi, haction, hfile]
      exact .inr ⟨i, _, c', hi, hgoes, hconnections⟩
    · cases h
  | write i n =>
    rw [step] at h
    split at h
    · next v info pos char chars hi =>
      obtain ⟨file, hfile, hs'⟩ := Option.map_eq_some_iff.mp h
      subst hs'
      have hsplit := List.take_append_drop (n + 1) (char :: chars)
      rw [← hsplit] at hi
      exact .inr ⟨i, _, _, hi, .write hfile, rfl⟩
    · cases h
  | stored i room =>
    rw [step] at h
    split at h
    · next v info pos hi =>
      cases h
      cases room with
      | false => exact .inr ⟨i, _, _, hi, .fail (by simp), rfl⟩
      | true => exact .inr ⟨i, _, _, hi, .stored, rfl⟩
    · cases h
  | close i =>
    rw [step] at h
    split at h
    · cases h
    · cases h
    · next c hstoring hi =>
      cases h
      exact .inr ⟨i, _, _, hi, .fail fun v info pos rest hc => absurd hc (hstoring v info pos rest), rfl⟩

omit [DecidableEq Name] in
/-- The connections after a step. -/
theorem getElem?_set_cases {connections : List (Stage Name)} {i j : ℕ} {c c' d : Stage Name}
    (hi : connections[i]? = some c) (hj : (connections.set i c')[j]? = some d) :
    (j = i ∧ d = c') ∨ (j ≠ i ∧ connections[j]? = some d) := by
  by_cases hji : i = j
  · subst hji
    rw [List.getElem?_set_self (List.getElem?_eq_some_iff.mp hi).1, Option.some.injEq] at hj
    exact .inl ⟨rfl, hj.symm⟩
  · rw [List.getElem?_set_ne hji] at hj
    exact .inr ⟨Ne.symm hji, hj⟩

end Hosts

/-! ### One at a time -/

namespace Hosts

variable {Name : Type*} [DecidableEq Name] {format : HostFormat Name} {s s' : Hosts Name} {event : HostsEvent Name}
  {file : String}

/-- What a connection that writes a file has written is a first part of what it had loaded with the new
certificate, and nobody else reads or writes the file. -/
def Orderly (format : HostFormat Name) (file : String) (s : Hosts Name) : Prop :=
  ∀ (i : ℕ) (v : TofuServerVerification Name) (info : CertVerificationInfo Name) (pos : ℕ) (rest : List Char),
    s.connections[i]? = some (.storing v info pos rest) → v.hostsFile = some file →
    (∃ (written : List Char) (it : HashMap.Iter (v.store.insert info.serverName info.fingerprint)),
      s.files.lookup file = some written ∧ written.length = pos ∧
        written ++ rest = storeKnownHostsToFile format it.entries) ∧
    ∀ (j : ℕ) (c : Stage Name), s.connections[j]? = some c → j ≠ i → ¬ c.Stores file ∧ ¬ c.Loads file

/-- While a connection writes the file, no other one does. -/
theorem Orderly.not_stores (h : Orderly format file s) {i j : ℕ} {c d : Stage Name} (hi : s.connections[i]? = some c)
    (hj : s.connections[j]? = some d) (hne : j ≠ i) (hstores : c.Stores file) : ¬ d.Stores file ∧ ¬ d.Loads file := by
  cases c with
  | storing v info pos rest => exact (h i v info pos rest hi hstores).2 j d hj hne
  | _ => exact hstores.elim

/-- A step of a connection that does not write the file, before it and after it, leaves the file as it is. -/
theorem Goes.lookup_eq {c c' : Stage Name} {files : HostFiles} (h : Goes format s event c files c')
    (hc : ¬ c.Stores file) (hc' : ¬ c'.Stores file) : files.lookup file = s.files.lookup file := by
  cases h with
  | create hdecides hfile hwrites it =>
    refine Finmap.lookup_insert_of_ne _ fun hsame => hc' ?_
    rw [Stage.Stores, hfile, hsame]
  | write hfile =>
    refine Finmap.lookup_insert_of_ne _ fun hsame => hc ?_
    rw [Stage.Stores, hfile, hsame]
  | _ => rfl

/-- A connection that reads the file has read it before, or begins to. -/
theorem Goes.begins_loading {c c' : Stage Name} {files : HostFiles} (h : Goes format s event c files c')
    (hc' : c'.Loads file) : c.Loads file ∨ s.reads file event ≠ none := by
  cases h with
  | @load config hreads =>
    rw [loadKnownHostsStoreFromConfig] at hc'
    split at hc'
    · exact hc'.elim
    · next file' hconfig =>
      split at hc'
      · obtain rfl : file' = file := hc'
        simp [hreads file' hconfig]
      · exact hc'.elim
  | readOn => exact .inl hc'
  | _ => exact hc'.elim

/-- A connection that writes the file has just created it, or has written on. -/
theorem Goes.storing {c : Stage Name} {files : HostFiles} {v : TofuServerVerification Name}
    {info : CertVerificationInfo Name} {pos : ℕ} {rest : List Char}
    (h : Goes format s event c files (.storing v info pos rest)) (hfile : v.hostsFile = some file) :
    (s.writes event = some file ∧ pos = 0 ∧ files = s.files.insert file [] ∧
      ∃ it : HashMap.Iter (v.store.insert info.serverName info.fingerprint),
        rest = storeKnownHostsToFile format it.entries) ∨
    ∃ pos' chunk, c = .storing v info pos' (chunk ++ rest) ∧ pos = pos' + chunk.length ∧
      files = s.files.insert file (writeAt ((s.files.lookup file).getD []) pos' chunk) := by
  generalize hc' : Stage.storing v info pos rest = c' at h
  cases h with
  | @load config =>
    rw [loadKnownHostsStoreFromConfig] at hc'
    split at hc'
    · cases hc'
    · split at hc' <;> cases hc'
  | create hdecides hfile' hwrites it =>
    cases hc'
    cases hfile.symm.trans hfile'
    exact .inl ⟨hwrites, rfl, rfl, it, rfl⟩
  | write hfile' =>
    cases hc'
    cases hfile.symm.trans hfile'
    exact .inr ⟨_, _, rfl, rfl, rfl⟩
  | _ => cases hc'

/-- A connection that writes the file has written it before, or begins to. -/
theorem Goes.begins_storing {c c' : Stage Name} {files : HostFiles} (h : Goes format s event c files c')
    (hc' : c'.Stores file) : c.Stores file ∨ s.writes event = some file := by
  cases c' with
  | storing v info pos rest =>
    obtain ⟨hwrites, -⟩ | ⟨pos', chunk, rfl, -⟩ := h.storing hc'
    · exact .inr hwrites
    · exact .inl hc'
  | _ => exact hc'.elim

/-- A connection that no longer writes the file has written all of it. -/
theorem Goes.ends_storing {c c' : Stage Name} {files : HostFiles} (h : Goes format s event c files c')
    (hc : c.Stores file) (hc' : ¬ c'.Stores file) :
    ∃ v info pos, c = .storing v info pos [] ∧ v.hostsFile = some file ∧ files = s.files := by
  cases h with
  | create hdecides => cases hdecides <;> exact hc.elim
  | accept hdecides => cases hdecides <;> exact hc.elim
  | write => exact absurd hc hc'
  | stored => exact ⟨_, _, _, rfl, hc, rfl⟩
  | fail hrest =>
    cases c with
    | storing v info pos rest =>
      obtain rfl := hrest v info pos rest rfl
      exact ⟨_, _, _, rfl, hc, rfl⟩
    | _ => exact hc.elim
  | _ => exact hc.elim

/-- While a connection writes the file, a step of another one does nothing with it. -/
theorem Orderly.undisturbed (h : Orderly format file s) (hapart : Apart file s event) {i k : ℕ} {c c' d : Stage Name}
    {files : HostFiles} (hi : s.connections[i]? = some c) (hgoes : Goes format s event c files c')
    (hk : s.connections[k]? = some d) (hne : k ≠ i) (hstores : d.Stores file) :
    files.lookup file = s.files.lookup file ∧ ¬ c'.Stores file ∧ ¬ c'.Loads file := by
  have hmem := List.mem_of_getElem? hk
  obtain ⟨hcs, hcl⟩ := h.not_stores hk hi (Ne.symm hne) hstores
  have hcs' : ¬ c'.Stores file := by
    intro hc'
    obtain hc | hw := hgoes.begins_storing hc'
    · exact hcs hc
    · exact (hapart.1 hw d hmem).1 hstores
  refine ⟨hgoes.lookup_eq hcs hcs', hcs', fun hc' => ?_⟩
  obtain hc | hr := hgoes.begins_loading hc'
  · exact hcl hc
  · exact hapart.2 hr d hmem hstores

/-- **One event** keeps the order, if the connections stay apart. -/
theorem Orderly.step {order : ∀ m : CertStore Name, HashMap.Iter m} (h : Orderly format file s)
    (hapart : Apart file s event) (hstep : s.step format order event = some s') : Orderly format file s' := by
  obtain ⟨config, hfiles, hconnections⟩ | ⟨i, c, c', hi, hgoes, hconnections⟩ := step_goes hstep
  · -- a connection is opened: it neither reads nor writes
    have hget : ∀ (j : ℕ) (d : Stage Name), s'.connections[j]? = some d →
        s.connections[j]? = some d ∨ d = .opened config := by
      intro j d hj
      rw [hconnections, List.getElem?_append] at hj
      split at hj
      · exact .inl hj
      · exact .inr (List.mem_singleton.mp (List.mem_of_getElem? hj))
    intro k v info pos rest hk hfile
    obtain hk | hk := hget k _ hk
    · refine ⟨hfiles ▸ (h k v info pos rest hk hfile).1, fun j d hj hne => ?_⟩
      obtain hj | rfl := hget j d hj
      · exact (h k v info pos rest hk hfile).2 j d hj hne
      · simp [Stage.Stores, Stage.Loads]
    · cases hk
  · intro k v info pos rest hk hfile
    rw [hconnections] at hk ⊢
    obtain ⟨rfl, rfl⟩ | ⟨hne, hk⟩ := getElem?_set_cases hi hk
    · -- this connection writes: it has just begun, or goes on
      obtain ⟨hwrites, rfl, hfiles, it, rfl⟩ | ⟨pos', chunk, rfl, rfl, hfiles⟩ := hgoes.storing hfile
      · refine ⟨⟨[], it, ?_, rfl, rfl⟩, fun j d hj hne => ?_⟩
        · rw [hfiles, Finmap.lookup_insert]
        · obtain ⟨hj', -⟩ | ⟨-, hj⟩ := getElem?_set_cases hi hj
          · exact absurd hj' hne
          · exact hapart.1 hwrites d (List.mem_of_getElem? hj)
      · obtain ⟨⟨written, it, hlookup, rfl, htext⟩, hothers⟩ := h k v info pos' _ hi hfile
        refine ⟨⟨written ++ chunk, it, ?_, List.length_append, ?_⟩, fun j d hj hne => ?_⟩
        · rw [hfiles, Finmap.lookup_insert, hlookup, Option.getD_some, writeAt_length]
        · rw [List.append_assoc, htext]
        · obtain ⟨hj', -⟩ | ⟨-, hj⟩ := getElem?_set_cases hi hj
          · exact absurd hj' hne
          · exact hothers j d hj hne
    · -- another connection writes: this one does nothing with the file
      obtain ⟨hlookup, hstores, hloads⟩ := h.undisturbed hapart hi hgoes hk hne hfile
      refine ⟨hlookup ▸ (h k v info pos rest hk hfile).1, fun j d hj hjk => ?_⟩
      obtain ⟨rfl, rfl⟩ | ⟨-, hj⟩ := getElem?_set_cases hi hj
      · exact ⟨hstores, hloads⟩
      · exact (h k v info pos rest hk hfile).2 j d hj hjk

/-- The connections are in order in every run in which they stay apart. -/
theorem Orderly.run {initial : Hosts Name → Prop} (h : Reached initial (Apart file) (Happens format) s)
    (hinitial : ∀ s, initial s → Orderly format file s) : Orderly format file s :=
  h.invariant hinitial fun _ _ _ hs hapart ⟨_, hstep⟩ => hs.step hapart hstep

/-- A file that has been written has what its connection had loaded and the new certificate. -/
theorem Orderly.knows_iff (hf : format.Lawful) (h : Orderly format file s) {i : ℕ} {v : TofuServerVerification Name}
    {info : CertVerificationInfo Name} {pos : ℕ} (hi : s.connections[i]? = some (.storing v info pos []))
    (hfile : v.hostsFile = some file) (host : Name) (fingerprint : CertificateFingerprint) :
    s.Knows format file host fingerprint ↔
      (v.store.insert info.serverName info.fingerprint).lookup host = some fingerprint := by
  obtain ⟨⟨written, it, hlookup, -, htext⟩, -⟩ := h i v info pos [] hi hfile
  rw [List.append_nil] at htext
  subst htext
  constructor
  · rintro ⟨text, store, htext, hload, hhost⟩
    cases hlookup.symm.trans htext
    cases (load_store hf it).symm.trans hload
    exact hhost
  · exact fun hhost => ⟨_, _, hlookup, load_store hf it, hhost⟩

end Hosts

/-! ### What is known stays known -/

namespace Hosts

variable {Name : Type*} [DecidableEq Name] {format : HostFormat Name} {s s₀ s' : Hosts Name} {event : HostsEvent Name}
  {file : String} {host : Name} {fingerprint : CertificateFingerprint}

/-- A verifier knows the certificate of the host, and does not trust another one of its own accord. -/
structure Sure (host : Name) (fingerprint : CertificateFingerprint) (v : TofuServerVerification Name) : Prop where
  /-- It knows it. -/
  lookup : v.store.lookup host = some fingerprint
  /-- It does not trust another one. -/
  cautious : Cautious v.verifierBehaviour

/-- What holds of a connection that is told of a file in which the certificate is known. -/
def Trusts (files : HostFiles) (file : String) (host : Name) (fingerprint : CertificateFingerprint) : Stage Name → Prop
  | .loading verifierBehaviour file' got =>
    file' = file → Cautious verifierBehaviour ∧ got <+: (files.lookup file).getD []
  | .started v => v.hostsFile = some file → Sure host fingerprint v
  | .waiting v status info =>
    v.hostsFile = some file → Sure host fingerprint v ∧
      info.knownFingerprint = v.store.lookup info.serverName ∧ status = TofuServerVerification.status info
  | .storing v info _ _ =>
    v.hostsFile = some file → Sure host fingerprint v ∧ (info.serverName = host → info.fingerprint = fingerprint)
  | .accepted v info => v.hostsFile = some file → info.serverName = host → info.fingerprint = fingerprint
  | _ => True

/-- Only connections that are reading the file depend on what is in it. -/
theorem Trusts.congr {files files' : HostFiles} {c : Stage Name} (h : Trusts files file host fingerprint c)
    (hfiles : c.Loads file → files'.lookup file = files.lookup file) : Trusts files' file host fingerprint c := by
  cases c with
  | loading verifierBehaviour file' got =>
    intro hsame
    rw [hfiles hsame]
    exact h hsame
  | _ => exact h

/-- A verifier trusts a certificate of the host only if it is the one it knows. -/
theorem Sure.fingerprint_eq {v : TofuServerVerification Name} (h : Sure host fingerprint v)
    {info : CertVerificationInfo Name} (hinfo : info.knownFingerprint = v.store.lookup info.serverName)
    (hhost : info.serverName = host) (hstatus : TofuServerVerification.status info ≠ .UntrustedCertificate) :
    info.fingerprint = fingerprint := by
  rw [hhost, h.lookup] at hinfo
  rw [TofuServerVerification.status, hinfo] at hstatus
  by_contra hne
  exact hstatus (if_neg (Ne.symm hne))

/-- A certificate that is acted on is one that the connection trusts. -/
theorem Decides.fingerprint_eq {c : Stage Name} {v : TofuServerVerification Name} {info : CertVerificationInfo Name}
    {action : CertVerifierAction} (h : Decides s event c v info action) (hc : Trusts s.files file host fingerprint c)
    (hcareful : Careful file host s event) (haction : action ≠ .AbortConnection) (hfile : v.hostsFile = some file) :
    Sure host fingerprint v ∧ (info.serverName = host → info.fingerprint = fingerprint) := by
  cases h with
  | @verify v serverName fingerprint' action hbehaviour =>
    have hsure := hc hfile
    refine ⟨hsure, fun hhost => hsure.fingerprint_eq rfl hhost fun hstatus => haction ?_⟩
    rw [hstatus, TofuServerVerification.behaviour] at hbehaviour
    cases hlookup : v.verifierBehaviour.lookup .UntrustedCertificate with
    | none =>
      rw [hlookup] at hbehaviour
      cases hbehaviour
      rfl
    | some b =>
      rw [hlookup] at hbehaviour
      exact hsure.cautious action (hlookup.trans (congrArg some hbehaviour))
  | @applyAction i v status info action room hevent hi =>
    obtain ⟨hsure, hknown, hstatus⟩ := hc hfile
    refine ⟨hsure, fun hhost => hsure.fingerprint_eq hknown hhost fun huntrusted => haction ?_⟩
    rw [hstatus, huntrusted] at hi
    exact hcareful.2 i action room v info hevent hi hfile hhost

/-- **A step of a connection** keeps what it trusts, if the file has the certificate when it is read. -/
theorem Goes.trusts {c c' : Stage Name} {files : HostFiles} (h : Goes format s event c files c')
    (hc : (∀ v info, c ≠ .accepted v info) → Trusts s.files file host fingerprint c)
    (hcareful : Careful file host s event)
    (hknows : c.Loads file ∨ s.reads file event ≠ none → s.Knows format file host fingerprint) :
    Trusts files file host fingerprint c' := by
  cases h with
  | @load config hreads =>
    rw [loadKnownHostsStoreFromConfig]
    split
    · exact fun hfile => nomatch hfile
    · next file' hconfig =>
      split
      · rintro rfl
        exact ⟨hcareful.1 config (hreads file' hconfig), List.nil_prefix⟩
      · next hmem =>
        rintro ⟨⟩
        obtain ⟨text, -, htext, -⟩ := hknows (.inr (by simp [hreads file hconfig]))
        exact absurd (Finmap.mem_of_lookup_eq_some htext) hmem
  | readOn hprefix =>
    rintro rfl
    obtain ⟨hcautious, hgot⟩ := hc (by simp) rfl
    exact ⟨hcautious, hprefix hgot⟩
  | @readAll verifierBehaviour file' got store hall hload =>
    rintro ⟨⟩
    obtain ⟨hcautious, hgot⟩ := hc (by simp) rfl
    obtain ⟨text, store', htext, hload', hhost⟩ := hknows (.inl rfl)
    rw [htext, Option.getD_some] at hall hgot
    obtain ⟨rest, rfl⟩ := hgot
    rw [List.drop_left] at hall
    rw [hall, List.append_nil, hload] at hload'
    cases hload'
    exact ⟨hhost, hcautious⟩
  | ask => exact fun hfile => ⟨hc (by simp) hfile, rfl, rfl⟩
  | accept hdecides haction =>
    refine fun hfile hhost => (hdecides.fingerprint_eq (hc ?_) hcareful haction hfile).2 hhost
    rintro v' info' rfl
    cases hdecides
  | create hdecides hfile' hwrites it =>
    refine fun hfile => hdecides.fingerprint_eq (hc ?_) hcareful (by decide) hfile
    rintro v' info' rfl
    cases hdecides
  | write => exact hc (by simp)
  | stored => exact fun hfile => (hc (by simp) hfile).2
  | fail => trivial

/-- The invariant of the runs from a state: the file has the certificate whenever nobody writes it, and all
connections trust it, but for those that had accepted another one. -/
structure Remembers (format : HostFormat Name) (s₀ : Hosts Name) (file : String) (host : Name)
    (fingerprint : CertificateFingerprint) (s : Hosts Name) : Prop where
  /-- The file is written by one connection at a time. -/
  orderly : Orderly format file s
  /-- It has the certificate when it is not written. -/
  knows : (∀ c ∈ s.connections, ¬ c.Stores file) → s.Knows format file host fingerprint
  /-- The connections trust it. -/
  trusts : ∀ (i : ℕ) (c : Stage Name), s.connections[i]? = some c →
    Trusts s.files file host fingerprint c ∨ ∃ v info, c = .accepted v info ∧ s₀.connections[i]? = some c

/-- Whoever reads the file finds the certificate in it. -/
theorem Remembers.knows_of_reads (h : Remembers format s₀ file host fingerprint s) (hapart : Apart file s event)
    {i : ℕ} {c : Stage Name} (hi : s.connections[i]? = some c) (hreads : c.Loads file ∨ s.reads file event ≠ none) :
    s.Knows format file host fingerprint := by
  obtain hloads | hreads := hreads
  · refine h.knows fun d hd hstores => ?_
    obtain ⟨k, hk⟩ := List.mem_iff_getElem?.mp hd
    by_cases hki : k = i
    · subst hki
      cases hi.symm.trans hk
      cases c with
      | loading => exact hstores
      | _ => exact hloads
    · exact (h.orderly.not_stores hk hi (Ne.symm hki) hstores).2 hloads
  · exact h.knows (hapart.2 hreads)

/-- A file that has been written has the certificate. -/
theorem Remembers.knows_of_written (hf : format.Lawful) (h : Remembers format s₀ file host fingerprint s) {i : ℕ}
    {v : TofuServerVerification Name} {info : CertVerificationInfo Name} {pos : ℕ}
    (hi : s.connections[i]? = some (.storing v info pos [])) (hfile : v.hostsFile = some file) :
    s.Knows format file host fingerprint := by
  refine (h.orderly.knows_iff hf hi hfile host fingerprint).mpr ?_
  obtain htrusts | ⟨_, _, haccepted, -⟩ := h.trusts i _ hi
  · obtain ⟨hsure, hinfo⟩ := htrusts hfile
    rw [HashMap.lookup_insert']
    split
    · next hhost => rw [hinfo hhost.symm]
    · exact hsure.lookup
  · cases haccepted

/-- **One event** keeps the invariant, if it is careful and the connections stay apart. -/
theorem Remembers.step (hf : format.Lawful) {order : ∀ m : CertStore Name, HashMap.Iter m}
    (h : Remembers format s₀ file host fingerprint s) (hapart : Apart file s event)
    (hcareful : Careful file host s event) (hstep : s.step format order event = some s') :
    Remembers format s₀ file host fingerprint s' := by
  have horderly := h.orderly.step hapart hstep
  obtain ⟨config, hfiles, hconnections⟩ | ⟨i, c, c', hi, hgoes, hconnections⟩ := step_goes hstep
  · refine ⟨horderly, fun hnone => ?_, fun j d hj => ?_⟩
    · rw [Knows, hfiles]
      exact h.knows fun d hd => hnone d (by rw [hconnections]; exact List.mem_append_left _ hd)
    · rw [hconnections, List.getElem?_append] at hj
      rw [hfiles]
      split at hj
      · exact h.trusts j d hj
      · obtain rfl := List.mem_singleton.mp (List.mem_of_getElem? hj)
        exact .inl trivial
  · have hmem' : c' ∈ s'.connections := by
      rw [hconnections]
      exact List.mem_set (List.getElem?_eq_some_iff.mp hi).1 c'
    refine ⟨horderly, fun hnone => ?_, fun j d hj => ?_⟩
    · by_cases hstores : c.Stores file
      · obtain ⟨v, info, pos, rfl, hfile, hfiles⟩ := hgoes.ends_storing hstores (hnone c' hmem')
        rw [Knows, hfiles]
        exact h.knows_of_written hf hi hfile
      · -- nobody has written the file, and nobody does now
        rw [Knows, hgoes.lookup_eq hstores (hnone c' hmem')]
        refine h.knows fun d hd => ?_
        obtain ⟨k, hk⟩ := List.mem_iff_getElem?.mp hd
        by_cases hki : i = k
        · subst hki
          cases hi.symm.trans hk
          exact hstores
        · refine hnone d (List.mem_of_getElem? (i := k) ?_)
          rw [hconnections, List.getElem?_set_ne hki, hk]
    · rw [hconnections] at hj
      obtain ⟨rfl, rfl⟩ | ⟨hne, hj⟩ := getElem?_set_cases hi hj
      · refine .inl (hgoes.trusts (fun hnot => ?_) hcareful (h.knows_of_reads hapart hi))
        obtain htrusts | ⟨v, info, haccepted, -⟩ := h.trusts j c hi
        · exact htrusts
        · exact absurd haccepted (hnot v info)
      · refine (h.trusts j d hj).imp_left fun htrusts => htrusts.congr fun hloads => ?_
        have hstores : ¬ c.Stores file := fun hstores => (h.orderly.not_stores hi hj hne hstores).2 hloads
        refine hgoes.lookup_eq hstores fun hstores' => ?_
        obtain hstores' | hw := hgoes.begins_storing hstores'
        · exact hstores hstores'
        · exact (hapart.1 hw d (List.mem_of_getElem? hj)).2 hloads

/-- Once a file has the certificate and no connection has loaded it that still goes on, the invariant holds. -/
theorem Remembers.start (hknows : s.Knows format file host fingerprint)
    (hidle : ∀ c ∈ s.connections, ¬ c.Pending file) : Remembers format s file host fingerprint s where
  orderly i v info pos rest hi hfile := absurd hfile (hidle _ (List.mem_of_getElem? hi))
  knows _ := hknows
  trusts i c hi := by
    have hpending := hidle c (List.mem_of_getElem? hi)
    cases c with
    | opened => exact .inl trivial
    | failed => exact .inl trivial
    | accepted v info => exact .inr ⟨v, info, rfl, hi⟩
    | _ => exact .inl fun hfile => absurd hfile hpending

/-- **What is known stays known**: once a file has the fingerprint of a server, and no connection that has
loaded it or loads it is still waiting for its certificate, the file has this fingerprint whenever nobody
writes it, in every run in which neither the user nor a configuration trusts an untrusted certificate of that
server, and connections neither read nor write the file while another one writes it, nor write it while
another one reads it, however they overlap otherwise; and a connection that comes to accept a certificate of
the server in the run accepts no other one, whoever is asked about unknown ones. -/
theorem known_stays (hf : format.Lawful) (hknows : s.Knows format file host fingerprint)
    (hidle : ∀ c ∈ s.connections, ¬ c.Pending file)
    (hrun : Reached (· = s) (fun s event => Apart file s event ∧ Careful file host s event) (Happens format) s') :
    ((∀ c ∈ s'.connections, ¬ c.Stores file) → s'.Knows format file host fingerprint) ∧
      ∀ (i : ℕ) v info, s'.connections[i]? = some (.accepted v info) →
        s.connections[i]? ≠ some (.accepted v info) → v.hostsFile = some file → info.serverName = host →
        info.fingerprint = fingerprint := by
  have hremembers : Remembers format s file host fingerprint s' := by
    refine hrun.invariant ?_ ?_
    · rintro _ rfl
      exact .start hknows hidle
    · rintro s₁ s₂ event hs₁ ⟨hapart, hcareful⟩ ⟨order, hstep⟩
      exact hs₁.step hf hapart hcareful hstep
  refine ⟨hremembers.knows, ?_⟩
  intro i v info hi hnew hfile hhost
  obtain htrusts | ⟨_, _, -, hold⟩ := hremembers.trusts i _ hi
  · exact htrusts hfile hhost
  · exact absurd hold hnew

/-! ### Connections that overlap -/

/-- A connection that has loaded known hosts goes on with this verifier. -/
def Keeps (v : TofuServerVerification Name) : Stage Name → Prop
  | .started v' | .waiting v' _ _ | .storing v' _ _ _ | .accepted v' _ => v' = v
  | .failed => True
  | .opened _ | .loading .. => False

/-- An action is taken by the verifier of the connection. -/
theorem Decides.keeps {c : Stage Name} {v v' : TofuServerVerification Name} {info : CertVerificationInfo Name}
    {action : CertVerifierAction} (h : Decides s event c v' info action) (hc : Keeps v c) : v' = v := by
  cases h with
  | verify => exact hc
  | applyAction => exact hc

/-- A step of a connection keeps its verifier. -/
theorem Goes.keeps {c c' : Stage Name} {files : HostFiles} {v : TofuServerVerification Name}
    (h : Goes format s event c files c') (hc : Keeps v c) : Keeps v c' := by
  cases h with
  | load => exact hc.elim
  | readOn => exact hc.elim
  | readAll => exact hc.elim
  | accept hdecides => exact hdecides.keeps hc
  | create hdecides => exact hdecides.keeps hc
  | fail => trivial
  | _ => exact hc

/-- A connection goes on with the verifier with which it has started. -/
def GoesOn (i : ℕ) (v : TofuServerVerification Name) (s : Hosts Name) : Prop :=
  ∃ c, s.connections[i]? = some c ∧ Keeps v c

/-- **One event** keeps the verifier of a connection. -/
theorem GoesOn.step {order : ∀ m : CertStore Name, HashMap.Iter m} {i : ℕ} {v : TofuServerVerification Name}
    (h : GoesOn i v s) (hstep : s.step format order event = some s') : GoesOn i v s' := by
  obtain ⟨c, hi, hc⟩ := h
  obtain ⟨hlt, -⟩ := List.getElem?_eq_some_iff.mp hi
  obtain ⟨config, -, hconnections⟩ | ⟨k, d, d', hk, hgoes, hconnections⟩ := step_goes hstep
  · exact ⟨c, by rw [hconnections, List.getElem?_append_left hlt, hi], hc⟩
  · by_cases hki : k = i
    · subst hki
      cases hi.symm.trans hk
      exact ⟨d', by rw [hconnections, List.getElem?_set_self hlt], hgoes.keeps hc⟩
    · exact ⟨c, by rw [hconnections, List.getElem?_set_ne hki, hi], hc⟩

/-- **Connections that overlap forget**: when a connection that had loaded the file has stored a certificate,
the file has this one, and of all other servers what the connection had loaded, whatever other connections have
stored since then, as long as they neither read nor write the file while another one writes it, nor write it while
another one reads it. -/
theorem overlapping_forget (hf : format.Lawful)
    (hreached : Reached (fun s => s.connections = []) (Apart file) (Happens format) s)
    {i : ℕ} {v : TofuServerVerification Name} (hi : s.connections[i]? = some (.started v))
    (hfile : v.hostsFile = some file)
    (hrun : Reached (· = s) (Apart file) (Happens format) s')
    {v' : TofuServerVerification Name} {info : CertVerificationInfo Name} {pos : ℕ}
    (hstored : s'.connections[i]? = some (.storing v' info pos [])) :
    s'.Knows format file info.serverName info.fingerprint ∧
      ∀ host ≠ info.serverName, ∀ fingerprint,
        s'.Knows format file host fingerprint ↔ v.store.lookup host = some fingerprint := by
  have horderly : Orderly format file s := by
    refine Orderly.run hreached fun s hnone i v info pos rest hi => ?_
    rw [hnone, List.getElem?_nil] at hi
    cases hi
  have horderly' : Orderly format file s' := by
    refine Orderly.run hrun ?_
    rintro _ rfl
    exact horderly
  have hkept : GoesOn i v s' := by
    refine hrun.invariant ?_ ?_
    · rintro _ rfl
      exact ⟨_, hi, rfl⟩
    · rintro s₁ s₂ event hs₁ - ⟨order, hstep⟩
      exact hs₁.step hstep
  obtain ⟨c, hc, hkeeps⟩ := hkept
  cases hstored.symm.trans hc
  obtain rfl : v' = v := hkeeps
  have hknows := horderly'.knows_iff hf hstored hfile
  refine ⟨(hknows _ _).mpr (Finmap.lookup_insert _), fun host hne fingerprint => ?_⟩
  rw [hknows, Finmap.lookup_insert_of_ne _ hne]

/-- Where nobody reads or writes the file, a connection to an unknown server that stores certificates of its own
accord can store one. -/
theorem can_store {initial : Hosts Name → Prop}
    (hreached : Reached initial (Apart file) (Happens format) s)
    (hapart : ∀ c ∈ s.connections, ¬ c.Stores file ∧ ¬ c.Loads file) {i : ℕ} {v : TofuServerVerification Name}
    (hi : s.connections[i]? = some (.started v)) (hfile : v.hostsFile = some file)
    (hbehaviour : v.behaviour .UnknownCertificate = .ImmediateAction .TrustAndStore) (host : Name)
    (hhost : v.store.lookup host = none) (fingerprint : CertificateFingerprint) :
    ∃ s' pos, Reached initial (Apart file) (Happens format) s' ∧
      s'.connections = s.connections.set i (.storing v ⟨host, fingerprint, none⟩ pos []) := by
  obtain ⟨order⟩ : Nonempty (∀ m : CertStore Name, HashMap.Iter m) := ⟨fun m => (HashMap.Iter.exists m).some⟩
  have hlt := (List.getElem?_eq_some_iff.mp hi).1
  have hinfo : v.certInfo host fingerprint = ⟨host, fingerprint, none⟩ := by
    rw [TofuServerVerification.certInfo, hhost]
  have hstatus : TofuServerVerification.status (⟨host, fingerprint, none⟩ : CertVerificationInfo Name) =
      .UnknownCertificate := rfl
  set text := storeKnownHostsToFile format (order (v.store.insert host fingerprint)).entries with htext
  set created : Hosts Name := goOn { s with files := s.files.insert file [] } i
    (.storing v ⟨host, fingerprint, none⟩ 0 text) with hcreated
  have hverify : s.step format order (.verify i host fingerprint true) = some created := by
    simp only [step, hi, hinfo, hstatus, hbehaviour, applyVerifierImmediateAction, hfile]
    rfl
  have hcreate := hreached.step (HostsEvent.verify i host fingerprint true)
    ⟨fun _ => hapart, fun hreads => absurd rfl hreads⟩ ⟨order, hverify⟩
  have hi' : created.connections[i]? = some (.storing v ⟨host, fingerprint, none⟩ 0 text) :=
    List.getElem?_set_self hlt
  cases hnil : text with
  | nil => exact ⟨created, 0, hcreate, by rw [← hnil]; rfl⟩
  | cons char chars =>
    rw [hnil] at hi'
    have hrest : (char :: chars).drop (text.length + 1) = [] := by
      rw [← hnil]
      exact List.drop_eq_nil_of_le (Nat.le_succ _)
    obtain ⟨s', pos, hwrite, hconnections⟩ : ∃ s' pos, created.step format order (.write i text.length) = some s' ∧
        s'.connections = s.connections.set i (.storing v ⟨host, fingerprint, none⟩ pos []) := by
      simp only [step, hi', hfile, Option.map_some, hrest]
      exact ⟨_, _, rfl, List.set_set ..⟩
    exact ⟨s', pos, hcreate.step (HostsEvent.write i text.length)
      ⟨fun hwrites => (nomatch hwrites), fun hreads => absurd rfl hreads⟩ ⟨order, hwrite⟩, hconnections⟩

end Hosts

/-! ### A certificate that is not the known one -/

instance (text : List Char) : Decidable (IsWord text) :=
  decidable_of_iff (text ≠ [] ∧ (text.all fun c => !isWhitespace c) = true) (by simp [IsWord])

/-- Names that are words, and bytes in base 64. -/
def plainFormat : HostFormat { text : List Char // IsWord text } where
  display := Subtype.val
  tryFrom text := if h : IsWord text then some ⟨text, h⟩ else none
  encode := Base64.encode
  decode := Base64.decode

theorem plainFormat_lawful : plainFormat.Lawful where
  display_isWord name := name.2
  tryFrom_display name := dif_pos name.2
  encode_isWord := by
    intro bytes hbytes
    have halphabet : (Base64.alphabet.all fun c => !isWhitespace c) = true := by decide
    refine ⟨Base64.encode_ne_nil hbytes, fun c hc => ?_⟩
    rcases Base64.mem_alphabet_of_mem_encode hc with hc | rfl
    · simpa using List.all_eq_true.mp halphabet c hc
    · decide
  decode_encode := Base64.decode_encode

/-- The name of a server. -/
def localhost : { text : List Char // IsWord text } := ⟨['1', '2', '7', '.', '0', '.', '0', '.', '1'], by decide⟩

/-- The name of another one. -/
def otherhost : { text : List Char // IsWord text } := ⟨['1', '2', '3', '.', '1', '2', '3', '.', '1', '.', '1'], by decide⟩

/-- A fingerprint of one byte over and over. -/
def fingerprintOf (byte : UInt8) : CertificateFingerprint := ⟨List.replicate 32 byte, List.length_replicate⟩

/-- The file with one server. -/
theorem load_store_localhost :
    Nonempty (HashMap.Iter ((∅ : CertStore { text // IsWord text }).insert localhost (fingerprintOf 7))) ∧
      ∀ it : HashMap.Iter ((∅ : CertStore { text // IsWord text }).insert localhost (fingerprintOf 7)),
        loadKnownHostsFromFile plainFormat (storeKnownHostsToFile plainFormat it.entries) =
          .ok ((∅ : CertStore { text // IsWord text }).insert localhost (fingerprintOf 7)) :=
  ⟨HashMap.Iter.exists _, fun it => load_store plainFormat_lawful it⟩

namespace Hosts

theorem cautious_default (Name : Type*) : Cautious (TrustOnFirstUseConfig.default Name).verifierBehaviour := by
  intro action h
  simp [TrustOnFirstUseConfig.default, HashMap.insertAll] at h

/-- A verifier with the configuration by default. -/
def defaultVerifier (Name : Type*) (store : CertStore Name) : TofuServerVerification Name :=
  ⟨store, (TrustOnFirstUseConfig.default Name).verifierBehaviour, some DEFAULT_KNOWN_HOSTS_FILE⟩

theorem behaviour_defaultVerifier (Name : Type*) (store : CertStore Name) :
    (defaultVerifier Name store).behaviour .UnknownCertificate = .ImmediateAction .TrustAndStore ∧
      (defaultVerifier Name store).behaviour .UntrustedCertificate = .RequestClientAction := by
  simp [defaultVerifier, TofuServerVerification.behaviour, TrustOnFirstUseConfig.default, HashMap.insertAll]

/-- A client with two connections, which have begun before there was a file. -/
def startedTwo (Name : Type*) : Hosts Name :=
  ⟨∅, [.started (defaultVerifier Name ∅), .started (defaultVerifier Name ∅)], []⟩

theorem reached_startedTwo {Name : Type*} [DecidableEq Name] (format : HostFormat Name) :
    Reached (fun s : Hosts Name => s.connections = []) (Apart DEFAULT_KNOWN_HOSTS_FILE) (Happens format)
      (startedTwo Name) := by
  obtain ⟨order⟩ : Nonempty (∀ m : CertStore Name, HashMap.Iter m) := ⟨fun m => (HashMap.Iter.exists m).some⟩
  refine Reached.step (s := ⟨∅, [.started (defaultVerifier Name ∅), .opened (.default Name)], []⟩) (HostsEvent.load 1)
    ?_ ⟨by simp [writes], by simp [Stage.Stores]⟩ ⟨order, rfl⟩
  refine Reached.step (s := ⟨∅, [.opened (.default Name), .opened (.default Name)], []⟩) (HostsEvent.load 0)
    ?_ ⟨by simp [writes], by simp [Stage.Stores]⟩ ⟨order, rfl⟩
  refine Reached.step (s := ⟨∅, [.opened (.default Name)], []⟩) (HostsEvent.openConnection (.default Name))
    ?_ ⟨by simp [writes], by simp [reads]⟩ ⟨order, rfl⟩
  exact Reached.step (s := ⟨∅, [], []⟩) (HostsEvent.openConnection (.default Name)) (.start rfl)
    ⟨by simp [writes], by simp [reads]⟩ ⟨order, rfl⟩

/-- Two servers that are met on connections that have loaded the file before: the file had the first one when its
connection had stored it, and does not have it when the second one has been stored. -/
theorem overlapping_forget_two : ∃ t s' : Hosts { text // IsWord text },
    t.Knows plainFormat DEFAULT_KNOWN_HOSTS_FILE localhost (fingerprintOf 7) ∧
      Reached (· = t) (Apart DEFAULT_KNOWN_HOSTS_FILE) (Happens plainFormat) s' ∧
      s'.Knows plainFormat DEFAULT_KNOWN_HOSTS_FILE otherhost (fingerprintOf 8) ∧
      ¬ s'.Knows plainFormat DEFAULT_KNOWN_HOSTS_FILE localhost (fingerprintOf 7) := by
  obtain ⟨order⟩ : Nonempty (∀ m : CertStore { text // IsWord text }, HashMap.Iter m) :=
    ⟨fun m => (HashMap.Iter.exists m).some⟩
  have hstarted := reached_startedTwo plainFormat
  have hbehaviour := (behaviour_defaultVerifier { text // IsWord text } ∅).1
  have hstart : Reached (· = startedTwo { text // IsWord text }) (Apart DEFAULT_KNOWN_HOSTS_FILE) (Happens plainFormat)
      (startedTwo { text // IsWord text }) := .start rfl
  obtain ⟨t, pos, hrun, ht⟩ := can_store hstart (by simp [startedTwo, Stage.Stores, Stage.Loads]) (i := 0) rfl rfl
    hbehaviour localhost (Finmap.lookup_empty _) (fingerprintOf 7)
  have hknows := (overlapping_forget plainFormat_lawful hstarted (i := 0) rfl rfl hrun (by rw [ht]; rfl)).1
  have hstored : t.step plainFormat order (.stored 0 true) =
      some (t.trust 0 (defaultVerifier _ ∅) ⟨localhost, fingerprintOf 7, none⟩ true) := by
    simp only [step, ht]
    rfl
  have hstart₁ : Reached (· = t) (Apart DEFAULT_KNOWN_HOSTS_FILE) (Happens plainFormat) t := .start rfl
  have hrun₁ := hstart₁.step (HostsEvent.stored 0 true) ⟨by simp [writes], by simp [reads]⟩ ⟨order, hstored⟩
  obtain ⟨s', pos', hrun₂, hs'⟩ := can_store hrun₁
    (by simp [ht, trust, goOn, tell, startedTwo, Stage.Stores, Stage.Loads]) (i := 1)
    (by simp [ht, trust, goOn, tell, startedTwo]) rfl hbehaviour otherhost (Finmap.lookup_empty _) (fingerprintOf 8)
  have hs'₁ : s'.connections[1]? =
      some (.storing (defaultVerifier _ ∅) ⟨otherhost, fingerprintOf 8, none⟩ pos' []) := by
    rw [hs', trust, tell, goOn, ht]
    rfl
  obtain ⟨hother, hforgot⟩ := overlapping_forget plainFormat_lawful hstarted (i := 1) rfl rfl (hrun.trans hrun₂) hs'₁
  refine ⟨t, s', hknows, hrun₂, hother, fun hlocal => ?_⟩
  have hempty := (hforgot localhost (by decide) _).mp hlocal
  cases hempty

/-- A server that is known comes with another certificate, and the user aborts the connection. -/
theorem known_stays_localhost : ∃ (s : Hosts { text // IsWord text }) (messages : List (CertMessage _)),
    Reached (· = s) (fun s event => Apart DEFAULT_KNOWN_HOSTS_FILE s event ∧
        Careful DEFAULT_KNOWN_HOSTS_FILE localhost s event) (Happens plainFormat) ⟨s.files, [.failed], messages⟩ ∧
      messages.length = 2 ∧
      Knows plainFormat ⟨s.files, [.failed], messages⟩ DEFAULT_KNOWN_HOSTS_FILE localhost (fingerprintOf 7) := by
  obtain ⟨order⟩ : Nonempty (∀ m : CertStore { text // IsWord text }, HashMap.Iter m) :=
    ⟨fun m => (HashMap.Iter.exists m).some⟩
  set config := TrustOnFirstUseConfig.default { text // IsWord text } with hconfig
  set store := (∅ : CertStore { text // IsWord text }).insert localhost (fingerprintOf 7) with hstore
  set verifier := defaultVerifier _ store with hverifier
  obtain ⟨it⟩ := HashMap.Iter.exists store
  set text := storeKnownHostsToFile plainFormat it.entries with htext
  set files : HostFiles := (∅ : HostFiles).insert DEFAULT_KNOWN_HOSTS_FILE text with hfiles
  have hlookup : files.lookup DEFAULT_KNOWN_HOSTS_FILE = some text := Finmap.lookup_insert _
  have hparse : loadKnownHostsFromFile plainFormat text = .ok store := load_store plainFormat_lawful it
  have hknown : store.lookup localhost = some (fingerprintOf 7) := Finmap.lookup_insert _
  -- the file is not empty, so it is read in one piece
  obtain ⟨char, chars, hcons⟩ : ∃ char chars, text = char :: chars := by
    rw [htext, it.entries_singleton]
    exact ⟨_, _, rfl⟩
  have hload : step plainFormat order ⟨files, [.opened config], []⟩ (.load 0) =
      some ⟨files, [.loading config.verifierBehaviour DEFAULT_KNOWN_HOSTS_FILE []], []⟩ := by
    have hmem : DEFAULT_KNOWN_HOSTS_FILE ∈ files := Finmap.mem_of_lookup_eq_some hlookup
    simp [step, goOn, loadKnownHostsStoreFromConfig, hconfig, TrustOnFirstUseConfig.default, hmem]
  have hread : step plainFormat order ⟨files, [.loading config.verifierBehaviour DEFAULT_KNOWN_HOSTS_FILE []], []⟩
      (.read 0 text.length) =
        some ⟨files, [.loading config.verifierBehaviour DEFAULT_KNOWN_HOSTS_FILE text], []⟩ := by
    simp [step, goOn, hlookup, hcons]
  have hstart : step plainFormat order ⟨files, [.loading config.verifierBehaviour DEFAULT_KNOWN_HOSTS_FILE text], []⟩
      (.read 0 0) = some ⟨files, [.started verifier], []⟩ := by
    simp [step, goOn, hlookup, hparse, hverifier, defaultVerifier, hconfig]
  have hinfo : verifier.certInfo localhost (fingerprintOf 8) =
      ⟨localhost, fingerprintOf 8, some (fingerprintOf 7)⟩ := by
    rw [TofuServerVerification.certInfo, hverifier, defaultVerifier, hknown]
  have hverify : step plainFormat order ⟨files, [.started verifier], []⟩ (.verify 0 localhost (fingerprintOf 8) true) =
      some ⟨files, [.waiting verifier .UntrustedCertificate ⟨localhost, fingerprintOf 8, some (fingerprintOf 7)⟩],
        [.CertificateInteractionRequest .UntrustedCertificate ⟨localhost, fingerprintOf 8, some (fingerprintOf 7)⟩]⟩ := by
    have hstatus : TofuServerVerification.status (⟨localhost, fingerprintOf 8, some (fingerprintOf 7)⟩ :
        CertVerificationInfo { text // IsWord text }) = .UntrustedCertificate := by decide
    have hbehaviour : verifier.behaviour .UntrustedCertificate = .RequestClientAction :=
      (behaviour_defaultVerifier _ store).2
    simp only [step, List.getElem?_cons_zero, hinfo, hstatus, hbehaviour]
    rfl
  have hcautious : ∀ config', reads DEFAULT_KNOWN_HOSTS_FILE ⟨files, [.opened config], []⟩ (.load 0) = some config' →
      Cautious config'.verifierBehaviour := by
    intro config' hreads
    have hsome : some config = some config' := by
      simpa [reads, hconfig, TrustOnFirstUseConfig.default] using hreads
    cases hsome
    exact cautious_default _
  have hrun : Reached (· = (⟨files, [], []⟩ : Hosts { text // IsWord text })) (fun s event =>
      Apart DEFAULT_KNOWN_HOSTS_FILE s event ∧ Careful DEFAULT_KNOWN_HOSTS_FILE localhost s event)
      (Happens plainFormat) ⟨files, [], []⟩ := .start rfl
  have hrun₁ := hrun.step (HostsEvent.openConnection config)
    ⟨⟨by simp [writes], by simp [reads]⟩, by simp [reads], by simp⟩ ⟨order, rfl⟩
  have hrun₂ := hrun₁.step (HostsEvent.load 0)
    ⟨⟨by simp [writes], by simp [Stage.Stores]⟩, hcautious, by simp⟩ ⟨order, hload⟩
  have hrun₃ := hrun₂.step (HostsEvent.read 0 text.length)
    ⟨⟨by simp [writes], by simp [reads]⟩, by simp [reads], by simp⟩ ⟨order, hread⟩
  have hrun₄ := hrun₃.step (HostsEvent.read 0 0)
    ⟨⟨by simp [writes], by simp [reads]⟩, by simp [reads], by simp⟩ ⟨order, hstart⟩
  have hrun₅ := hrun₄.step (HostsEvent.verify 0 localhost (fingerprintOf 8) true)
    ⟨⟨by simp [Stage.Stores, Stage.Loads], by simp [reads]⟩, by simp [reads], by simp⟩ ⟨order, hverify⟩
  have hrun₆ := hrun₅.step (HostsEvent.applyAction 0 .AbortConnection true)
    ⟨⟨by simp [Stage.Stores, Stage.Loads], by simp [reads]⟩, by simp [reads], by rintro _ _ _ _ _ ⟨⟩ _ _ _; rfl⟩
    ⟨order, rfl⟩
  refine ⟨⟨files, [], []⟩, _, hrun₆, rfl,
    (known_stays plainFormat_lawful ⟨_, _, hlookup, hparse, hknown⟩ ?_ hrun₆).1 ?_⟩
  · simp
  · intro c hc
    rw [List.mem_singleton.mp hc]
    exact id

end Hosts

end Distgard.Quintet
