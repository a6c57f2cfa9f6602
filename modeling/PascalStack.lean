import PascalStack.Folder
import PascalStack.Main
import PascalStack.Pascal.Rebuild
import PascalStack.Proofs.Analysis.Calls
import PascalStack.Proofs.Analysis.Completeness
import PascalStack.Proofs.Analysis.Invariance
import PascalStack.Proofs.Analysis.Jumps
import PascalStack.Proofs.Analysis.Naming
import PascalStack.Proofs.Analysis.Repetition
import PascalStack.Proofs.Analysis.Reporting
import PascalStack.Proofs.Analysis.Wholeness
import PascalStack.Proofs.Code.Cells
import PascalStack.Proofs.Code.ControlLabels
import PascalStack.Proofs.Code.OwnCode
import PascalStack.Proofs.Code.Renaming
import PascalStack.Proofs.Code.Returns
import PascalStack.Proofs.Code.Texts
import PascalStack.Proofs.Compiler.Recasing
import PascalStack.Proofs.ControlFlow.Correctness
import PascalStack.Proofs.LR.Tables
import PascalStack.Proofs.Pascal.Casing
import PascalStack.Proofs.Pascal.Comments
import PascalStack.Proofs.Pascal.Layout
import PascalStack.Proofs.Simplify.Repetition
import PascalStack.Proofs.Simplify.Statements
import PascalStack.Proofs.Syntax.Precedence
import PascalStack.Proofs.Token.Words
import PascalStack.Session
