import ManifestGate.Access.Record
import ManifestGate.CommandLine.Arguments
import ManifestGate.Gateway
import ManifestGate.Manifest.Dump

/-!
# What the program does

A command is a script: it asks for files and directories one after the other and ends with an
outcome. Scripts decide everything; whoever carries one out only answers what it asks.
-/

namespace ManifestGate.CommandLine

variable {σ : Type}

structure Outcome where
  exit : Nat
  stdout : String
  error : Option String

def Outcome.success (stdout : String) : Outcome := ⟨0, stdout, none⟩

def Outcome.failure (error : String) : Outcome := ⟨1, "", some error⟩

inductive FileText where
  | text (contents : String)
  | missing
  | unreadable (reason : String)

def FileText.reason : FileText → String
  | .text _ => ""
  | .missing => "no such file"
  | .unreadable reason => reason

inductive Script where
  | finish (outcome : Outcome)
  | load (path : String) (next : FileText → Script)
  /-- Makes a directory and those above it; answers with the reason if it cannot be made. -/
  | ensureDirectory (path : String) (next : Option String → Script)

namespace Script

def fail (error : String) : Script := .finish (.failure error)

/-- Goes on with the value of a step that may fail. -/
def andThen (message : ε → String) (result : Except ε α) (next : α → Script) : Script :=
  match result with
  | .ok value => next value
  | .error cause => fail (message cause)

end Script

def printed (json : Json) : Outcome :=
  .success (json.pretty ++ "\n")

/-- Reads the configuration file; a missing file stands for the defaults. -/
def readConfig (path : String) (next : Config → Script) : Script :=
  .load path fun
    | .text contents =>
      match Config.ofToml? contents with
      | some config => next config
      | none => .fail ("failed to parse config at " ++ path)
    | .missing => next .default
    | .unreadable reason => .fail ("failed to read config at " ++ path ++ ": " ++ reason)

/-- Makes the directory of log files, if there is to be one. -/
def prepareLogs (config : Config) (next : Script) : Script :=
  match config.logging.dir with
  | none => next
  | some dir =>
    .ensureDirectory dir fun
      | none => next
      | some reason => .fail ("failed to create logs directory " ++ dir ++ ": " ++ reason)

def readManifest (path : String) (next : Json → Script) : Script :=
  .load path fun
    | .text contents => .andThen ManifestError.message (parseManifest contents) next
    | _ => .fail ("failed to read manifest " ++ path)

def readStore (path : String) (next : Store → Script) : Script :=
  .load path fun
    | .text contents => .andThen StoreError.message (Store.ofToml contents) next
    | other => .fail (StoreError.unreadable other.reason).message

/-- The document given as request data; none stands for `null`. -/
def readData (data : Option String) (next : Json → Script) : Script :=
  match data with
  | none => next .null
  | some text => .andThen (fun _ => "--data is not valid JSON") (Json.parse text) next

def withRegistry (config : Config) (capabilities : List (String × Capability σ))
    (next : Registry σ → Script) : Script :=
  .andThen (fun _ => "failed to build capability registry")
    (Registry.build config.engine.capabilityRoot capabilities) next

/-- Compiles a manifest and prints its objects, or how many they are. -/
def compileScript (host : Host σ) (config : Config) (manifest : String) (dump : Bool) : Script :=
  withRegistry config (Builtin.capabilities host) fun registry =>
    readManifest manifest fun json =>
      .andThen ManifestError.message (compile registry json) fun compiled =>
        if dump then .finish (.success (compiled.dump ++ "\n"))
        else
          .finish (printed (.object [("keys", .array (compiled.keys.map .string)),
            ("objects", .number (.integer compiled.objects.length))]))

def executeScript (host : Host σ) (state : σ) (config : Config) (manifest : String)
    (data : Option String) : Script :=
  withRegistry config (Builtin.capabilities host) fun registry =>
    readData data fun json =>
      .andThen ManifestError.message (requestData json) fun data =>
        readManifest manifest fun json =>
          let (requestId, state) := host.newId state
          let scope : Scope := ⟨requestId, .anonymous, .bypass⟩
          let engine : Engine σ := ⟨registry, host⟩
          match engine.run scope json data (.start state) with
          | (.ok response, _) => .finish (printed (response.getD .null))
          | (.error cause, _) => .fail cause.message

def authorizeScript (store path : String) (method : Method) (group : String) : Script :=
  readStore store fun store =>
    match store.directory.handler? path method with
    | none => .fail ("no handler for " ++ method.name ++ " " ++ path)
    | some handler =>
      .andThen AccessError.message (store.directory.decideFor handler group) fun access =>
        .finish (printed access.toJson)

/-- The requester of a command line: a user with its acting group, or nobody. -/
def requesterOf (user group : Option String) : Requester :=
  match user with
  | some user => ⟨some user, user, group, group.toList⟩
  | none => .anonymous

def requestScript (host : Host σ) (state : σ) (config : Config) (store path : String)
    (method : Method) (user group data : Option String) : Script :=
  readData data fun data =>
    readStore store fun store =>
      let directory := store.directory
      withRegistry config (Gateway.capabilities host directory config) fun registry =>
        let gateway : Gateway σ := ⟨directory, ⟨registry, host⟩, config⟩
        match gateway.respond ⟨path, method, requesterOf user group, data⟩ (.start state) with
        | (.ok response, _) => .finish (printed response.toJson)
        | (.error payload, _) =>
          .finish ⟨1, payload.toJson.pretty ++ "\n",
            some ("request failed with status " ++ toString payload.code)⟩

def commandScript (host : Host σ) (state : σ) (config : Config) : Command → Script
  | .compile manifest dump => compileScript host config manifest dump
  | .execute manifest data => executeScript host state config manifest data
  | .authorize store path method group => authorizeScript store path method group
  | .request store path method user group data =>
    requestScript host state config store path method user group data

/-- The script of a command line in an environment of variables, for a program of this name. -/
def script (host : Host σ) (state : σ) (program : String) (lookup : String → Option String)
    (arguments : List String) : Script :=
  match read program arguments with
  | .misuse => .finish ⟨2, "", none⟩
  | .text text => .finish (.success text)
  | .invocation invocation =>
    let path :=
      match invocation.config with
      | some path => path
      | none => (lookup Config.pathVariable).getD Config.defaultPath
    readConfig path fun config =>
      let config := config.override lookup
      prepareLogs config (commandScript host state config invocation.command)

def variableNames : List String :=
  [Config.pathVariable, "LENSE_DEBUG", "LENSE_CAPABILITY_ROOT", "LENSE_ACL_ENABLED",
    "LENSE_ADMIN_GROUP", "LENSE_LOG_LEVEL", "LENSE_LOG_DIR"]

end ManifestGate.CommandLine
