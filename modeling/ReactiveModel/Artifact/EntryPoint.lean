import ReactiveModel.Artifact.OfClass
import ReactiveModel.Artifact.SourceFile

/-! Files of a class: its artifact and its program. -/

namespace ReactiveModel

namespace SourceFile

def withHeader (s : Settings) (f : SourceFile) : SourceFile :=
  { f with
    headers :=
      [s.headerText, "Any changes you make to it will be lost when it is regenerated."] }

end SourceFile

namespace Artifact

def file (s : Settings) (package : String) (a : Artifact) : SourceFile :=
  let runtimeName := Naming.packageName (Path.base a.runtime)
  SourceFile.withHeader s
    { package
      hints := if runtimeName == "" then [] else [(a.runtime, runtimeName)]
      body := a.code }

end Artifact

namespace Class

/-- The program that runs a class. It imports the generated package, whose path must be known. -/
def entryPoint (s : Settings) (package : String) (c : Class) : Except Failure SourceFile :=
  if s.package == "" then
    .error (.generation c.name "entrypoint" (Naming.entryPointFile c.name)
      "entry point needs the import path of the generated package" (some (.sentinel .config)))
  else
    .ok <| SourceFile.withHeader s
      { package := "main"
        hints := [(s.package, package)]
        body := .declarations [.phrase ["func", "main", .params [], .block
          [.call (.qualified s.runtimePath "Main")
            [.call (.qualified s.runtimePath "NewSurfaceForGenerated")
              [.callOf "new" [.qualified s.package c.name]]]]]] }

end Class

end ReactiveModel
