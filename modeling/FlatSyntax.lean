import FlatSyntax.Command.Arguments
import FlatSyntax.Command.Run
import FlatSyntax.Diagnostic.Excerpt
import FlatSyntax.Diagnostic.Snippet
import FlatSyntax.Lexer.Lexeme
import FlatSyntax.Lexer.Scanner
import FlatSyntax.Main
import FlatSyntax.NodeType
import FlatSyntax.Session
import FlatSyntax.Text.Basic
import FlatSyntax.Text.Boundary
import FlatSyntax.Text.Quoted
import FlatSyntax.Text.Width
import FlatSyntax.Token.Basic
import FlatSyntax.Token.Stream
import FlatSyntax.Tree.Basic
import FlatSyntax.Tree.Build
import FlatSyntax.Tree.Consumers
import FlatSyntax.Tree.Touching
import FlatSyntax.Tree.Walk
import FlatSyntax.Proofs.Token.Repair
import FlatSyntax.Proofs.Tree.Layout
import FlatSyntax.Proofs.Token.Ownership
import FlatSyntax.Proofs.Lexer.Scan
import FlatSyntax.Proofs.Lexer.Grammar
import FlatSyntax.Proofs.Lexer.Numeral
import FlatSyntax.Proofs.Lexer.Lexical
import FlatSyntax.Proofs.Session
import FlatSyntax.Proofs.Tree.Policy
import FlatSyntax.Proofs.Tree.Consumers
import FlatSyntax.Proofs.Lexer.Lines
import FlatSyntax.Proofs.Lexer.Restart
import FlatSyntax.Proofs.Tree.Lines
import FlatSyntax.Proofs.Tree.Lookup
import FlatSyntax.Proofs.Lexer.Comment
import FlatSyntax.Proofs.Lexer.NumberLiteral
import FlatSyntax.Proofs.Tree.RootSize
import FlatSyntax.Proofs.Token.Arrival
import FlatSyntax.Proofs.Token.Defect
import FlatSyntax.Proofs.Text.Written
import FlatSyntax.Proofs.Tree.Dump
import FlatSyntax.Proofs.Tree.Navigation
import FlatSyntax.Proofs.Tree.Viewport
import FlatSyntax.Proofs.Diagnostic.Place
import FlatSyntax.Proofs.Command.Agreement
import FlatSyntax.Proofs.Diagnostic.Snap
import FlatSyntax.Proofs.Tree.Reading
