import ReactiveModel.Artifact.Check
import ReactiveModel.Artifact.EntryPoint

/-! From a class to the file of its artifact. -/

namespace ReactiveModel

namespace Class

inductive Made
  | file (f : SourceFile)
  | failed (f : Failure)
  | crashed

def file (s : Settings) (workDir : String) (reg : Registry) (c : Class) : Made :=
  match c.check s reg with
  | .passed => .file ((c.artifact s reg).file s (s.goPackage workDir))
  | .failed f =>
    .failed (.generation c.name "check" (Naming.classFile c.name) "artifact not written" (some f))
  | .crashed => .crashed

end Class

end ReactiveModel
