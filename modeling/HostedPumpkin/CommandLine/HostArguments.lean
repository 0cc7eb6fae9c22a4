import HostedPumpkin.CommandLine.CmdLine

/-!
What `main` takes from the command line: the six arguments it declares, and which
command lines start the host, print help or version, or are refused.

The switch for the test mode is constructed but never added to the command line, so
that `-t` is no argument of the program.
-/

namespace HostedPumpkin

open TCLAP

/-- The arguments with a value that `main` adds. -/
inductive HostOption where
  | clrVersion
  | assemblyFileName
  | typeName
  | methodName
  | snippetDataBase
  | serverPort
deriving DecidableEq, Repr

namespace HostOption

def flag : HostOption → Char
  | clrVersion => 'v'
  | assemblyFileName => 'a'
  | typeName => 'c'
  | methodName => 'm'
  | snippetDataBase => 'd'
  | serverPort => 'p'

def name : HostOption → Text
  | clrVersion => "clrversion".toList
  | assemblyFileName => "assembly".toList
  | typeName => "type".toList
  | methodName => "method".toList
  | snippetDataBase => "database".toList
  | serverPort => "port".toList

def typeDesc : HostOption → Text
  | serverPort => "int".toList
  | _ => "string".toList

/-- The value an argument is constructed with, where it is a string. -/
def default : HostOption → Text
  | clrVersion => "v2.0.50727".toList
  | _ => []

/-- In the order of `_argList`, which is that of their declaration turned round. -/
def all : List HostOption :=
  [serverPort, snippetDataBase, methodName, typeName, assemblyFileName, clrVersion]

theorem mem_all (o : HostOption) : o ∈ all := by
  cases o <;> decide

end HostOption

def defaultPort : Int := 4321

def helpArg : Arg := ⟨['h'], "help".toList, false, [], .switch false, false, some .help⟩

def versionArg : Arg := ⟨[], "version".toList, false, [], .switch false, false, some .version⟩

def ignoreArg : Arg :=
  ⟨flagStartString, "ignore_rest".toList, false, [], .switch false, false, some .ignoreRest⟩

def testModeArg : Arg := ⟨['t'], "test".toList, false, [], .switch false, false, none⟩

/-- An argument as `main` constructs it. -/
def HostOption.valueArg (o : HostOption) : Arg :=
  ⟨[o.flag], o.name, o == .clrVersion, o.typeDesc,
    if o = .serverPort then .int defaultPort else .string o.default, false, none⟩

/-- The command line of the host, with the switches `_constructor` adds first. -/
def simpleCLRHost : Except Thrown CmdLine := do
  let cmd ← (⟨[], 0⟩ : CmdLine).add helpArg
  let cmd ← cmd.add versionArg
  let cmd ← cmd.add ignoreArg
  let cmd ← cmd.add HostOption.clrVersion.valueArg
  let cmd ← cmd.add HostOption.assemblyFileName.valueArg
  let cmd ← cmd.add HostOption.typeName.valueArg
  let cmd ← cmd.add HostOption.methodName.valueArg
  let cmd ← cmd.add HostOption.snippetDataBase.valueArg
  cmd.add HostOption.serverPort.valueArg

/-- The variables of `main` that the command line fills. -/
structure HostArguments where
  clrVersion : Text
  assemblyFileName : Text
  typeName : Text
  methodName : Text
  snippetDataBase : Text
  serverPort : Int
  testMode : Bool
deriving DecidableEq, Repr

/-- The argument object behind one of the variables of `main`. -/
def TCLAP.Parsing.arg (s : Parsing) (o : HostOption) : Option Arg :=
  s.argList.find? fun arg => arg.name == o.name

def TCLAP.Parsing.isSet (s : Parsing) (o : HostOption) : Bool :=
  (s.arg o).any Arg.alreadySet

/-- `getValue` of a `ValueArg<string>`. -/
def TCLAP.Parsing.stringValue (s : Parsing) (o : HostOption) : Text :=
  match (s.arg o).map Arg.value with
  | some (.string value) => value
  | _ => []

/-- `getValue` of a `ValueArg<int>`. -/
def TCLAP.Parsing.intValue (s : Parsing) (o : HostOption) : Int :=
  match (s.arg o).map Arg.value with
  | some (.int value) => value
  | _ => 0

/-- The part of `main` before the runtime is loaded, from the tokens behind the program's
name: the values it goes on with, or the status the process ends with. -/
def hostArguments (args : List Text) : Except Nat HostArguments :=
  match simpleCLRHost with
  | .error _ => .error 1
  | .ok cmd => do
    let s ← cmd.parse args
    let testMode := testModeArg.value == .switch true
    if testMode && (!s.isSet .typeName || !s.isSet .assemblyFileName) then
      .error 1
    else if !testMode && !s.isSet .snippetDataBase then .error 1
    else .ok {
      clrVersion := s.stringValue .clrVersion
      assemblyFileName := s.stringValue .assemblyFileName
      typeName := s.stringValue .typeName
      methodName := s.stringValue .methodName
      snippetDataBase := s.stringValue .snippetDataBase
      serverPort := s.intValue .serverPort
      testMode := testMode }

example : hostArguments ["-v".toList, "v4.0.30319".toList, "--database".toList,
    "snippets.sdf".toList, "-p 80".toList] =
    .ok ⟨"v4.0.30319".toList, [], [], [], "snippets.sdf".toList, 80, false⟩ := by
  decide

end HostedPumpkin
