import GpuFleet.Agent.NativeTasks

/-!
# Commands of tasks

A task that is no native one runs as a command.  `buildCommand` makes it from the
type and the payload of the task, the settings, and what there is on the node:
programs on the search path, files, and the credentials for Modal.

The payload is untyped.  What it lacks or has in a wrong form raises, and so does
what the node lacks.  The types that only the native path knows raise as well
(`draftCommand_native`).  Two commands need a file or a directory that is made
half-way, so a command is drafted, its files are made, and it is finished.
-/

namespace GpuFleet

open Foundations

/-! ## The node -/

/-- The settings of the agent that commands are built from. -/
structure AgentSettings extends AgentDirs where
  pythonExecutable : Option String := none
  venvPath : Option String := none
  uvExecutable : Option String := none
  condaExecutable : Option String := none
  micromambaExecutable : Option String := none
  modalDefaultCredentialName : Option String := none
  modalDefaultEnvironment : Option String := none
  modalDefaultWorkspace : Option String := none

/-- What commands are built from on a node. -/
structure Host where
  /-- `os.name == "nt"` -/
  isWindows : Bool := false
  /-- `shutil.which` -/
  which : String → Option String
  pathExists : AbsPath → Bool
  isFile : AbsPath → Bool
  /-- The current directory. -/
  cwd : AbsPath := []
  /-- `sys.executable` -/
  sysExecutable : String
  /-- `os.environ["PATH"]` -/
  pathVariable : String := ""
  /-- The credentials for Modal. -/
  modalCredentials : List (List (String × Json)) := []
  /-- The credential whose turn is next. -/
  modalNextIndex : Int := 0

/-- A task as the dispatcher reads it. -/
structure AgentTask extends NativeTask where
  timeoutSec : Nat := 3600
  killGraceSec : Nat := 15

/-! ## Values of a payload -/

/-- The first of some values that is true. -/
def firstTruthy (values : List (Option Json)) : Option Json :=
  values.findSome? fun value => value.filter Json.isTruthy

section Commands

variable (py : Python) (host : Host) (settings : AgentSettings)

/-- `str(payload.get(key, "")).strip()` -/
def strippedText (fields : List (String × Json)) (key : String) : String :=
  py.strip ((fields.lookup key).elim "" py.str)

/-! ## Backends -/

/-- `SUPPORTED_EXECUTION_BACKENDS` -/
inductive ExecutionBackend where
  | default
  | systemPython
  | venvPath
  | uvProject
  | condaName
  | condaPrefix
  | micromambaPrefix
  deriving DecidableEq, Repr

/-- The word for a backend. -/
def ExecutionBackend.text : ExecutionBackend → String
  | default => "default"
  | systemPython => "system_python"
  | venvPath => "venv_path"
  | uvProject => "uv_project"
  | condaName => "conda_name"
  | condaPrefix => "conda_prefix"
  | micromambaPrefix => "micromamba_prefix"

/-- The backends, in the order of their words. -/
def supportedExecutionBackends : List ExecutionBackend :=
  [.condaName, .condaPrefix, .default, .micromambaPrefix, .systemPython, .uvProject, .venvPath]

/-- `ExecutionSpec` -/
structure ExecutionSpec where
  backend : ExecutionBackend := .default
  target : Option String := none
  python : Option String := none

/-- `PreparedCommand` -/
structure PreparedCommand where
  command : List String
  envOverrides : List (String × String) := []
  summary : List (String × Json) := []

/-- A field that may be missing, null or empty.  A list or an object has no hash to look up. -/
def optionalText : Option Json → Except FileError (Option String)
  | none | some .null | some (.str "") => .ok none
  | some (.arr _) => .error (.raised "unhashable type: 'list'")
  | some (.obj _) => .error (.raised "unhashable type: 'dict'")
  | some value => .ok (some (py.strip (py.str value)))

/-- `parse_execution_spec` -/
def parseExecutionSpec (payload : List (String × Json)) : Except FileError ExecutionSpec :=
  match payload.lookup "execution" with
  | none | some .null => .ok {}
  | some (.obj raw) => do
      let stated := py.strip ((raw.lookup "backend").elim "default" py.str)
      let text := if stated = "" then "default" else stated
      match supportedExecutionBackends.find? fun backend => backend.text = text with
      | none => .error (.raised ("payload.execution.backend must be one of: " ++
          ", ".intercalate (supportedExecutionBackends.map ExecutionBackend.text)))
      | some backend =>
          let target ← optionalText py (raw.lookup "target")
          let python ← optionalText py (raw.lookup "python")
          .ok { backend, target, python }
  | some _ => .error (.raised "payload.execution must be an object")

/-- A text that is there and not empty. -/
def nonempty (text : Option String) : Option String := text.filter (· ≠ "")

/-- `_resolve_executable` -/
def resolveExecutable (candidate fallbackName : Option String) : Option String :=
  let found := (nonempty candidate).bind fun candidate =>
    (host.which candidate).or <|
      let path := joinPath host.cwd candidate
      if host.pathExists path then some (pathText path) else none
  found.or (fallbackName.bind host.which)

/-- `resolve_default_python` -/
def resolveDefaultPython : Except FileError String :=
  match nonempty settings.pythonExecutable with
  | none => .ok host.sysExecutable
  | some configured =>
      match resolveExecutable host (some configured) none with
      | none => .error (.raised ("configured python executable not found: " ++ configured))
      | some resolved => .ok resolved

/-- `_resolve_path_target` -/
def resolvePathTarget (rawTarget workdir : String) : AbsPath :=
  joinPath (joinPath host.cwd workdir) rawTarget

/-- `_resolve_venv_python` -/
def resolveVenvPython (rawTarget workdir : String) : Except FileError AbsPath :=
  let targetPath := resolvePathTarget host rawTarget workdir
  let candidate := targetPath ++
    (if host.isWindows then ["Scripts".toList, "python.exe".toList]
      else ["bin".toList, "python".toList])
  if host.isFile targetPath then .ok targetPath
  else if host.pathExists candidate then .ok candidate
  else .error (.raised ("venv interpreter not found under: " ++ pathText targetPath))

/-- `_shell_wrapper` -/
def shellWrapper (commandText : String) : List String :=
  if host.isWindows then
    let shellExe := ((host.which "pwsh").or (host.which "powershell")).getD "powershell"
    [shellExe, "-NoProfile", "-Command", commandText]
  else ["/bin/bash", "-lc", commandText]

/-- `_build_venv_env` -/
def buildVenvEnv (venvPython : AbsPath) : List (String × String) :=
  let binDir := pathText venvPython.dropLast
  let separator := if host.isWindows then ";" else ":"
  let path :=
    if host.pathVariable = "" then binDir else binDir ++ separator ++ host.pathVariable
  [("VIRTUAL_ENV", pathText venvPython.dropLast.dropLast), ("PATH", path)]

/-- The beginning of each summary. -/
def ExecutionSpec.summary (spec : ExecutionSpec) : List (String × Json) :=
  [("backend", .str spec.backend.text), ("target", Json.ofOption spec.target),
    ("python", Json.ofOption spec.python)]

/-- The environment a task names, or the one of the settings. -/
def venvTarget (spec : ExecutionSpec) : Except FileError String :=
  match (nonempty spec.target).or (nonempty settings.venvPath) with
  | none => .error (.raised
      "venv_path backend requires payload.execution.target or GPUFLEET_AGENT_VENV_PATH")
  | some target => .ok target

/-- A program on the node that has to be there. -/
def requireExecutable (candidate : Option String) (name : String) : Except FileError String :=
  match resolveExecutable host candidate (some name) with
  | none => .error (.raised (name ++ " executable not found on this node"))
  | some executable => .ok executable

/-- A target that has to be there. -/
def requireTarget (spec : ExecutionSpec) : Except FileError String :=
  match nonempty spec.target with
  | none => .error (.raised (spec.backend.text ++ " backend requires payload.execution.target"))
  | some target => .ok target

/-- How a command starts in a backend that runs it through another program, with what that adds to
the summary. -/
def runnerPrefix (spec : ExecutionSpec) (workdir : String) :
    Except FileError (List String × List (String × Json)) :=
  match spec.backend with
  | .uvProject => do
      let uv ← requireExecutable host settings.uvExecutable "uv"
      let project :=
        pathText (resolvePathTarget host ((nonempty spec.target).getD workdir) workdir)
      .ok ([uv, "run", "--project", project], [("resolved_project", .str project)])
  | .condaName => do
      let conda ← requireExecutable host settings.condaExecutable "conda"
      let target ← requireTarget spec
      .ok ([conda, "run", "--cwd", workdir, "-n", target], [("resolved_conda", .str conda)])
  | .condaPrefix => do
      let conda ← requireExecutable host settings.condaExecutable "conda"
      let target ← requireTarget spec
      let resolved := pathText (resolvePathTarget host target workdir)
      .ok ([conda, "run", "--cwd", workdir, "-p", resolved],
        [("resolved_conda", .str conda), ("resolved_prefix", .str resolved)])
  | .micromambaPrefix => do
      let micromamba ← requireExecutable host settings.micromambaExecutable "micromamba"
      let target ← requireTarget spec
      let resolved := pathText (resolvePathTarget host target workdir)
      .ok ([micromamba, "run", "-p", resolved],
        [("resolved_micromamba", .str micromamba), ("resolved_prefix", .str resolved)])
  | .default | .systemPython | .venvPath => .ok ([], [])

/-- `prepare_python_command` -/
def preparePythonCommand (payload : List (String × Json)) (argv : List String) (workdir : String) :
    Except FileError PreparedCommand := do
  let spec ← parseExecutionSpec py payload
  match spec.backend with
  | .default | .systemPython =>
      let interpreter ←
        match nonempty spec.python with
        | some python => .ok python
        | none => resolveDefaultPython host settings
      match resolveExecutable host (some interpreter) none with
      | none => .error (.raised ("python executable not found: " ++ interpreter))
      | some resolved =>
          .ok { command := resolved :: argv
                summary := spec.summary ++ [("resolved_python", .str resolved)] }
  | .venvPath =>
      let target ← venvTarget settings spec
      let venvPython ← resolveVenvPython host target workdir
      let env := buildVenvEnv host venvPython
      .ok { command := pathText venvPython :: argv
            envOverrides := env
            summary := spec.summary ++ [("resolved_python", .str (pathText venvPython)),
              ("resolved_venv", .str (pathText venvPython.dropLast.dropLast))] }
  | .uvProject | .condaName | .condaPrefix | .micromambaPrefix =>
      let (start, resolved) ← runnerPrefix host settings spec workdir
      .ok { command := start ++ (nonempty spec.python).getD "python" :: argv
            summary := spec.summary ++ resolved }

/-- `prepare_shell_command` -/
def prepareShellCommand (payload : List (String × Json)) (commandText workdir : String) :
    Except FileError PreparedCommand := do
  let spec ← parseExecutionSpec py payload
  let wrappedShell := shellWrapper host commandText
  match spec.backend with
  | .default | .systemPython => .ok { command := wrappedShell, summary := spec.summary }
  | .venvPath =>
      let target ← venvTarget settings spec
      let venvPython ← resolveVenvPython host target workdir
      .ok { command := wrappedShell
            envOverrides := buildVenvEnv host venvPython
            summary := spec.summary ++
              [("resolved_venv", .str (pathText venvPython.dropLast.dropLast))] }
  | .uvProject | .condaName | .condaPrefix | .micromambaPrefix =>
      let (start, resolved) ← runnerPrefix host settings spec workdir
      .ok { command := start ++ wrappedShell, summary := spec.summary ++ resolved }

/-! ## Modal -/

/-- `choose_modal_credential`.  Without a name the credentials take turns. -/
def chooseModalCredential (payload : List (String × Json)) :
    Except FileError (Option (List (String × Json))) :=
  let entries := host.modalCredentials.filter fun entry =>
    (entry.lookup "enabled").all Json.isTruthy
  let explicitName := py.strip ((firstTruthy
    [payload.lookup "credential_name", payload.lookup "modal_credential_name"]).elim "" py.str)
  let defaultName := py.strip (settings.modalDefaultCredentialName.getD "")
  let wantedName := if explicitName = "" then defaultName else explicitName
  if entries = [] then .ok none
  else if wantedName ≠ "" then
    match entries.find? fun entry => strippedText py entry "name" = wantedName with
    | none => .error (.raised ("modal credential not found: " ++ wantedName))
    | some entry => .ok (some entry)
  else .ok entries[(host.modalNextIndex % entries.length).toNat]?

/-- `build_modal_env_overrides`: the variables, and what the result says about them. -/
def buildModalEnvOverrides (payload : List (String × Json)) :
    Except FileError (List (String × String) × List (String × Json)) := do
  let context (name workspace environment : Json) : List (String × Json) :=
    [("credential_name", name), ("workspace", workspace), ("environment", environment)]
  match ← chooseModalCredential py host settings payload with
  | none =>
      match nonempty settings.modalDefaultEnvironment with
      | none => .ok ([], context .null .null .null)
      | some environment =>
          .ok ([("MODAL_ENVIRONMENT", environment)], context .null .null (.str environment))
  | some chosen =>
      let tokenId := strippedText py chosen "token_id"
      let tokenSecret := strippedText py chosen "token_secret"
      if tokenId = "" ∨ tokenSecret = "" then
        .error (.raised "modal credential entry must contain token_id and token_secret")
      else
        let workspace := ((chosen.lookup "workspace").filter Json.isTruthy).elim
          (Json.ofOption (nonempty settings.modalDefaultWorkspace)) fun v => .str (py.str v)
        let environment := py.strip ((firstTruthy [payload.lookup "modal_environment",
          chosen.lookup "environment", settings.modalDefaultEnvironment.map .str]).elim "" py.str)
        let name := Json.ofOption (nonempty (some (strippedText py chosen "name")))
        let tokens := [("MODAL_TOKEN_ID", tokenId), ("MODAL_TOKEN_SECRET", tokenSecret)]
        if environment = "" then .ok (tokens, context name workspace .null)
        else .ok (tokens ++ [("MODAL_ENVIRONMENT", environment)],
          context name workspace (.str environment))

/-- `os.path.isabs(text)`, and otherwise the text below the workdir. -/
def belowWorkdir (workdir text : String) : String :=
  if "/".isPrefixOf text then text else workdir ++ "/" ++ text

/-- A path of a payload, below the workdir if it is relative.  A path has to be a text. -/
def pathBelow (workdir : String) : Json → Except FileError String
  | .str text => .ok (belowWorkdir workdir text)
  | _ => .error (.raised "unsupported operand type(s) for /")

/-! ## Commands -/

/-- What `build_command` returns. -/
structure BuiltCommand where
  command : List String
  inlineScriptPath : Option String := none
  envOverrides : List (String × String) := []
  summary : List (String × Json) := []

/-- A command, up to the files and directories it makes and after them. -/
structure Draft where
  made : List AbsPath := []
  finish : Except FileError BuiltCommand

/-- A prepared command is finished. -/
def Draft.ofPrepared (inlineScriptPath : Option String)
    (prepared : Except FileError PreparedCommand) : Except FileError BuiltCommand :=
  prepared.map fun p => ⟨p.command, inlineScriptPath, p.envOverrides, p.summary⟩

/-- A list of a payload, which may be missing or null. -/
def payloadList (payload : List (String × Json)) (key message : String) :
    Except FileError (List String) :=
  match payload.lookup key with
  | none | some .null => .ok []
  | some (.arr items) => .ok (items.map py.str)
  | some _ => .error (.raised message)

/-- The target of `modal run`. -/
def modalTarget (task : NativeTask) (workdir : String) : Except FileError (List String) :=
  match (task.payload.lookup "module_path").filter Json.isTruthy,
    (task.payload.lookup "script_path").filter Json.isTruthy with
  | some modulePath, _ =>
      let target := py.strip (py.str modulePath)
      if target = "" then
        .error (.raised "modal_command payload.module_path must not be empty")
      else .ok ["-m", target]
  | none, some scriptPath => do
      let raw ← pathBelow workdir scriptPath
      let target ← resolveSafePath settings.toAgentDirs host.cwd raw (taskExtraRoots task)
      .ok [pathText target]
  | none, none => .error (.raised
      "modal_command requires payload.command or payload.script_path/module_path")

/-- The flags of `modal run` that the payload switches on. -/
def modalFlags (payload : List (String × Json)) : List String :=
  [("--detach", "detach"), ("--interactive", "interactive"), ("--quiet", "quiet"),
    ("--timestamps", "timestamps")].filterMap fun flag =>
      if (payload.lookup flag.2).any Json.isTruthy then some flag.1 else none

/-- `build_modal_command` -/
def buildModalCommand (task : NativeTask) (workdir : String) : Except FileError Draft := do
  match host.which "modal" with
  | none => .error (.raised "modal CLI not found on this node")
  | some modalExe =>
      let built (command : List String) : BuiltCommand :=
        { command, summary := [("backend", .str "modal")] }
      let rawCommand := strippedText py task.payload "command"
      if rawCommand ≠ "" then .ok { finish := .ok (built (shellWrapper host rawCommand)) }
      else
        let args ← payloadList py task.payload "args" "modal_command payload.args must be a list"
        let modalEnv := strippedText py task.payload "modal_env"
        let start := [modalExe, "run"] ++ modalFlags task.payload ++
          (if modalEnv = "" then [] else ["--env", modalEnv])
        let entrypoint := strippedText py task.payload "entrypoint"
        let finish (start : List String) : Except FileError BuiltCommand := do
          let target ← modalTarget py host settings task workdir
          let target := target.dropLast ++ (target.getLast?.map fun ref =>
            if entrypoint = "" then ref else ref ++ "::" ++ entrypoint).toList
          .ok (built (start ++ target ++ args))
        match (task.payload.lookup "write_result_path").filter Json.isTruthy with
        | none => .ok { finish := finish start }
        | some writeResultPath =>
            let raw ← pathBelow workdir writeResultPath
            let path ← resolveSafePath settings.toAgentDirs host.cwd raw (taskExtraRoots task)
            .ok { made := [path.dropLast]
                  finish := finish (start ++ ["--write-result", pathText path]) }

/-- The program a health check runs. -/
def healthCheckScript : String :=
  "import json,os,platform,sys;print(json.dumps(\x7b'ok': True,'python': sys.version.split()[0],'executable': sys.executable,'cwd': os.getcwd(),'platform': platform.platform()\x7d, ensure_ascii=False))"

/-- `build_command`, up to the files it makes. -/
def draftCommand (task : NativeTask) (runDir : AbsPath) (workdir : String) :
    Except FileError Draft :=
  let payload := task.payload
  match task.type with
  | .healthCheck =>
      let python := (nonempty settings.pythonExecutable).getD host.sysExecutable
      let built : BuiltCommand :=
        { command := [python, "-c", healthCheckScript], summary := [("backend", .str "default")] }
      .ok { finish := .ok built }
  | .shell =>
      let commandText := strippedText py payload "command"
      if commandText = "" then .error (.raised "shell task missing payload.command")
      else .ok { finish :=
        Draft.ofPrepared none (prepareShellCommand py host settings payload commandText workdir) }
  | .pythonScript =>
      if strippedText py payload "script" = "" then
        .error (.raised "python_script task missing payload.script")
      else
        let scriptPath := runDir ++ ["inline_task.py".toList]
        .ok { made := [scriptPath]
              finish := Draft.ofPrepared (some (pathText scriptPath))
                (preparePythonCommand py host settings payload [pathText scriptPath] workdir) }
  | .pipInstall =>
      match payload.lookup "packages" with
      | some (.arr (package :: packages)) => do
          let packageValues := (package :: packages).map py.str
          let extraArgs ←
            payloadList py payload "extra_args" "pip_install payload.extra_args must be a list"
          let local_ := packageValues.any fun item => host.pathExists (joinPath host.cwd item)
          let extraArgs :=
            if local_ && !extraArgs.contains "--no-build-isolation" then
              extraArgs ++ ["--no-build-isolation"]
            else extraArgs
          .ok { finish := Draft.ofPrepared none (preparePythonCommand py host settings payload
            (["-m", "pip", "install"] ++ packageValues ++ extraArgs) workdir) }
      | _ => .error (.raised "pip_install task requires non-empty payload.packages")
  | .gitPull =>
      let repoUrl := strippedText py payload "repo_url"
      match (payload.lookup "repo_dir").filter Json.isTruthy with
      | none => .error (.raised "git_pull task requires payload.repo_url and payload.repo_dir")
      | some repoDir =>
          if repoUrl = "" then
            .error (.raised "git_pull task requires payload.repo_url and payload.repo_dir")
          else do
            let repoPath ← resolveSafePath settings.toAgentDirs host.cwd (py.str repoDir)
              (taskExtraRoots task)
            let repo := pathText repoPath
            let branch := strippedText py payload "branch"
            let command :=
              if !host.pathExists repoPath || !host.pathExists (repoPath ++ [".git".toList]) then
                if branch = "" then ["git", "clone", repoUrl, repo]
                else ["git", "clone", "--branch", branch, repoUrl, repo]
              else if branch = "" then ["git", "-C", repo, "pull"]
              else ["git", "-C", repo, "pull", "origin", branch]
            let built : BuiltCommand := { command, summary := [("backend", .str "native")] }
            .ok { finish := .ok built }
  | .modalCommand => buildModalCommand py host settings task workdir
  | .fileMkdir | .fileWrite | .filePatchText | .fileMove | .fileDelete | .fileExtract
  | .filePreview | .uploadAndUnpack | .downloadFile =>
      .error (.raised ("Unsupported task type for node agent MVP: " ++ task.type.text))

end Commands

/-- The types that only `execute_native_task` knows. -/
def TaskType.isNative : TaskType → Bool
  | .fileMkdir | .fileWrite | .filePatchText | .fileMove | .fileDelete | .fileExtract
  | .filePreview | .uploadAndUnpack | .downloadFile => true
  | .healthCheck | .shell | .pythonScript | .pipInstall | .gitPull | .modalCommand => false

/-- There is no command for such a type. -/
theorem draftCommand_native {py : Python} {host : Host} {settings : AgentSettings}
    {task : NativeTask} {runDir : AbsPath} {workdir : String} (h : task.type.isNative = true) :
    ∃ e, draftCommand py host settings task runDir workdir = .error e := by
  unfold draftCommand
  cases htype : task.type <;> simp [htype, TaskType.isNative] at h ⊢

end GpuFleet
