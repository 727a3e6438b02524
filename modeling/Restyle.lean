import Restyle.Class.Adaptation
import Restyle.Class.BaseColor
import Restyle.Class.Direction
import Restyle.Class.Palette
import Restyle.Class.Prefixed
import Restyle.Class.Token
import Restyle.Color.Grammar
import Restyle.Color.Names
import Restyle.Color.Value
import Restyle.Command.Arguments
import Restyle.Command.Request
import Restyle.Command.Run
import Restyle.Css.Edit
import Restyle.Css.Location
import Restyle.Css.Path
import Restyle.Css.Printer
import Restyle.Css.Reader
import Restyle.Css.Token
import Restyle.Css.Tree
import Restyle.Failure
import Restyle.Files.Access
import Restyle.Files.Path
import Restyle.Files.Store
import Restyle.Json.Decode
import Restyle.Json.Reader
import Restyle.Json.Value
import Restyle.Main
import Restyle.Merge.Key
import Restyle.Merge.Nested
import Restyle.Merge.Plan
import Restyle.Merge.Rules
import Restyle.Order.Distinct
import Restyle.Order.Entries
import Restyle.Project.Document
import Restyle.Project.Installation
import Restyle.Project.Item
import Restyle.Project.Loading
import Restyle.Project.Settings
import Restyle.Script.Adaptation
import Restyle.Script.Arrows
import Restyle.Script.Bindings
import Restyle.Script.Classes
import Restyle.Script.Cursor
import Restyle.Script.Declarations
import Restyle.Script.Dialect
import Restyle.Script.Escape
import Restyle.Script.Functions
import Restyle.Script.Grammar
import Restyle.Script.Letters
import Restyle.Script.Literals
import Restyle.Script.Markup
import Restyle.Script.Modules
import Restyle.Script.Names
import Restyle.Script.Node
import Restyle.Script.Objects
import Restyle.Script.Operands
import Restyle.Script.Operators
import Restyle.Script.Program
import Restyle.Script.Statements
import Restyle.Script.Token
import Restyle.Script.Types
import Restyle.Text.Blank
import Restyle.Text.BlankLines
import Restyle.Text.Search
import Restyle.Theme.Base
import Restyle.Theme.Inline
import Restyle.Theme.Install
import Restyle.Theme.Migration
import Restyle.Theme.Modes
import Restyle.Theme.Property
import Restyle.Theme.Scaffold
import Restyle.Theme.Variables
import Restyle.Proofs.Class.Token
import Restyle.Proofs.Class.Prefixed
import Restyle.Proofs.Class.Repetition
import Restyle.Proofs.Class.Shades
import Restyle.Proofs.Class.Parts
import Restyle.Proofs.Css.Tokens
import Restyle.Proofs.Css.Edit
import Restyle.Proofs.Css.Closing
import Restyle.Proofs.Css.Faults
import Restyle.Proofs.Css.Generated
import Restyle.Proofs.Css.Verbatim
import Restyle.Proofs.Css.Slots
import Restyle.Proofs.Css.Blindness
import Restyle.Proofs.Css.Distinct
import Restyle.Proofs.Css.Imports
import Restyle.Proofs.Merge.Additive
import Restyle.Proofs.Merge.Fulfilment
import Restyle.Proofs.Merge.Idempotence
import Restyle.Proofs.Merge.Bodies
import Restyle.Proofs.Merge.Canonical
import Restyle.Proofs.Merge.Imports
import Restyle.Proofs.Merge.Leaves
import Restyle.Proofs.Theme.Mirrors
import Restyle.Proofs.Theme.Repetition
import Restyle.Proofs.Theme.Idempotence
import Restyle.Proofs.Theme.Imports
import Restyle.Proofs.Theme.Variant
import Restyle.Proofs.Theme.Registries
import Restyle.Proofs.Project.Installation
import Restyle.Proofs.Script.Adaptation
import Restyle.Proofs.Script.Splicing
import Restyle.Proofs.Script.Escape
import Restyle.Proofs.Script.Enclosure
import Restyle.Proofs.Theme.Scaffold
import Restyle.Proofs.Theme.Names
import Restyle.Proofs.Merge.Nested
import Restyle.Proofs.Text.Runs
