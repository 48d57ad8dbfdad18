import MatrixLang.Main
import MatrixLang.Proofs.Layout.Analysis
import MatrixLang.Proofs.Lexing.Account
import MatrixLang.Proofs.Lexing.LineBreak
import MatrixLang.Proofs.Lexing.Mending
import MatrixLang.Proofs.Scope.Reported
import MatrixLang.Proofs.Syntax.Earliest
import MatrixLang.Proofs.Typing.Precision
import MatrixLang.Token.Cover
import MatrixLang.Token.Reader
import MatrixLang.Viewer.Session
import MatrixLang.Proofs.Report.Line
import MatrixLang.Proofs.Report.Problem
import MatrixLang.Proofs.Report.Shown
import MatrixLang.Proofs.Number.Text
import MatrixLang.Proofs.Report.Message
import MatrixLang.Proofs.Report.Agreement
import MatrixLang.Proofs.Scope.Reuse
import MatrixLang.Proofs.Outline.Indent
import MatrixLang.Proofs.Outline.Top
import MatrixLang.Proofs.Outline.Label
import MatrixLang.Proofs.Outline.Expression
import MatrixLang.Proofs.Outline.Statement
import MatrixLang.Proofs.Outline.Program
import MatrixLang.Proofs.Checking.Loop
import MatrixLang.Proofs.Viewing.Run
import MatrixLang.Proofs.Viewing.Selection
import MatrixLang.Proofs.Viewing.Following
import MatrixLang.Proofs.Viewing.Layout
import MatrixLang.Proofs.Viewing.Standard
import MatrixLang.Proofs.Viewing.Settled
import MatrixLang.Proofs.Typing.Size
import MatrixLang.Proofs.Typing.Sum
import MatrixLang.Proofs.Checking.Compound
import MatrixLang.Proofs.Checking.Cause
import MatrixLang.Proofs.Syntax.Term
import MatrixLang.Proofs.Checking.Local
import MatrixLang.Proofs.Lexing.Stepwise
import MatrixLang.Proofs.Lexing.Pointed
import MatrixLang.Proofs.Descent.Resume
import MatrixLang.Proofs.Viewing.Mark
import MatrixLang.Proofs.Viewing.Guide
import MatrixLang.Proofs.Checking.Unreached
