import Hlb.Go.Strings
import Hlb.Go.Strconv
import Hlb.Go.Reflect
import Hlb.Codegen.Ast
import Hlb.Codegen.StringLit
import Hlb.Codegen.Heredoc
import Hlb.Codegen.Prototype
import Hlb.Codegen.Builtin
import Hlb.Codegen.Imports
import Hlb.Codegen.Register
import Hlb.Codegen.Program
import Hlb.Codegen.Eval
import Hlb.Codegen.EvalProofs
import Hlb.Codegen.Replay
import Hlb.Codegen.Pipeline
import Hlb.Go.Template
import Hlb.Builtin.Gen
