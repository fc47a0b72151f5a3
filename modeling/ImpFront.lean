import ImpFront.Check
import ImpFront.CommandLine
import ImpFront.Error
import ImpFront.Grammar.Cursor
import ImpFront.Grammar.Expression
import ImpFront.Grammar.File
import ImpFront.Grammar.Lookahead
import ImpFront.Grammar.Parser
import ImpFront.Grammar.Rules
import ImpFront.Grammar.Statement
import ImpFront.Journal
import ImpFront.Main
import ImpFront.Position
import ImpFront.Proofs.Acceptance.Account
import ImpFront.Proofs.Acceptance.Balance
import ImpFront.Proofs.Acceptance.Induction
import ImpFront.Proofs.Acceptance.Judgement
import ImpFront.Proofs.Acceptance.Soundness
import ImpFront.Proofs.Acceptance.Values
import ImpFront.Proofs.Grammar.Announcement
import ImpFront.Proofs.Grammar.Bounds
import ImpFront.Proofs.Grammar.Contract
import ImpFront.Proofs.Grammar.Ending
import ImpFront.Proofs.Grammar.ExpressionContract
import ImpFront.Proofs.Grammar.Keeping
import ImpFront.Proofs.Grammar.Lookahead
import ImpFront.Proofs.Grammar.Reading
import ImpFront.Proofs.Grammar.Soundness
import ImpFront.Proofs.Grammar.StatementContract
import ImpFront.Proofs.Grammar.Steps
import ImpFront.Proofs.Outcome
import ImpFront.Proofs.Scope.Context
import ImpFront.Proofs.Scope.History
import ImpFront.Proofs.Scope.Invariant
import ImpFront.Proofs.Scope.Keeping
import ImpFront.Proofs.Scope.Laws
import ImpFront.Proofs.Scope.Representation
import ImpFront.Proofs.Scope.Sweep
import ImpFront.Proofs.Tree.Mentions
import ImpFront.Proofs.Typing
import ImpFront.Report.Collection
import ImpFront.Report.Diagnostic
import ImpFront.Report.Output
import ImpFront.Report.Terminal
import ImpFront.Scope.Basic
import ImpFront.Scope.Symbol
import ImpFront.Scope.Table
import ImpFront.Text.Blank
import ImpFront.Text.Lines
import ImpFront.Text.Numeral
import ImpFront.Text.Printable
import ImpFront.Text.Quoted
import ImpFront.Token.Basic
import ImpFront.Token.Kind
import ImpFront.Token.Lexeme
import ImpFront.Token.Scanner
import ImpFront.Tree.Basic
import ImpFront.Tree.Outline
import ImpFront.Typing
import ImpFront.Proofs.Grammar.Recursion
import ImpFront.Proofs.Acceptance.Progress
import ImpFront.Proofs.Token.Tiling
import ImpFront.Proofs.Tree.Spelling
import ImpFront.Proofs.Acceptance.Spelling
import ImpFront.Proofs.Scope.Trace
import ImpFront.Proofs.Scope.Lifecycle
import ImpFront.Proofs.Grammar.Visiting
import ImpFront.Proofs.Acceptance.Reserved
import ImpFront.Proofs.Grammar.Completeness
import ImpFront.Proofs.Tree.Printing
import ImpFront.Proofs.Grammar.Foretelling
import ImpFront.Proofs.Acceptance.Standing
import ImpFront.Proofs.Acceptance.Facing
import ImpFront.Proofs.Acceptance.Declaring
import ImpFront.Proofs.Acceptance.Precedence
import ImpFront.Proofs.Acceptance.Awaiting
import ImpFront.Proofs.Acceptance.Deciding
import ImpFront.Proofs.Acceptance.Completeness
import ImpFront.Proofs.Report.Verdict
import ImpFront.Proofs.Tree.Placeless
import ImpFront.Proofs.Scope.Likeness
import ImpFront.Proofs.Grammar.Lockstep
import ImpFront.Proofs.Grammar.ExpressionLockstep
import ImpFront.Proofs.Grammar.StatementLockstep
import ImpFront.Proofs.Acceptance.Blame
import ImpFront.Proofs.Token.Spacing
import ImpFront.Proofs.Acceptance.Spacing
import ImpFront.Proofs.Acceptance.Attributes
import ImpFront.Proofs.Text.Normal
import ImpFront.Proofs.Token.Lexeme
import ImpFront.Proofs.Token.Munch
import ImpFront.Proofs.Token.LineBreaks
import ImpFront.Proofs.Token.Relexing
import ImpFront.Proofs.Token.Coordinates
import ImpFront.Proofs.Token.SourceLines
import ImpFront.Proofs.Grammar.Fork
import ImpFront.Proofs.Grammar.ExpressionFork
import ImpFront.Proofs.Grammar.StatementFork
import ImpFront.Proofs.Acceptance.Foresight
import ImpFront.Proofs.Report.Underline
import ImpFront.Proofs.Tree.Declarations
import ImpFront.Proofs.Acceptance.Warnings
import ImpFront.Proofs.Acceptance.Ranges
import ImpFront.Proofs.Acceptance.Compound
import ImpFront.Proofs.Acceptance.Layout
import ImpFront.Proofs.Grammar.Pairing
import ImpFront.Proofs.Acceptance.Chains
import ImpFront.Proofs.Acceptance.Writing
import ImpFront.Proofs.Acceptance.Leading
import ImpFront.Proofs.Acceptance.Heading
import ImpFront.Proofs.Acceptance.Importing
