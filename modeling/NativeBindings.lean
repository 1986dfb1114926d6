import NativeBindings.Main
import NativeBindings.Proofs.CSharp.AccessorBody
import NativeBindings.Proofs.CSharp.Attribution
import NativeBindings.Proofs.CSharp.BlockHeader
import NativeBindings.Proofs.CSharp.CallingConvention
import NativeBindings.Proofs.CSharp.ConstantHead
import NativeBindings.Proofs.CSharp.LibraryClass
import NativeBindings.Proofs.CSharp.PinnedParameter
import NativeBindings.Proofs.CSharp.SetterParameter
import NativeBindings.Proofs.CSharp.SlotComment
import NativeBindings.Proofs.CSharp.StringLiteral
import NativeBindings.Proofs.CSharp.TreePrinting
import NativeBindings.Proofs.Declaration.ContainerNames
import NativeBindings.Proofs.DeclarationArena.Runs
import NativeBindings.Proofs.DeclarationTree.History
import NativeBindings.Proofs.DeclarationTree.Pruning
import NativeBindings.Proofs.DeclarationTree.Rejection
import NativeBindings.Proofs.Format.Expansion
import NativeBindings.Proofs.Format.FixedPattern
import NativeBindings.Proofs.Format.LiteralPattern
import NativeBindings.Proofs.Format.Precision
import NativeBindings.Proofs.Format.ScientificPattern
import NativeBindings.Proofs.Format.SectionChoice
import NativeBindings.Proofs.Format.StandardText
import NativeBindings.Proofs.Format.TwosComplement
import NativeBindings.Proofs.Fragment.Indentation
import NativeBindings.Proofs.Generation.Confinement
import NativeBindings.Proofs.Generation.Output
import NativeBindings.Proofs.Manifest.Declarations
import NativeBindings.Proofs.Manifest.NestedAccess
import NativeBindings.Proofs.Manifest.Overloads
import NativeBindings.Proofs.Manifest.TypeCanonicity
import NativeBindings.Proofs.Manifest.TypeSpelling
import NativeBindings.Proofs.Number.Rounding
import NativeBindings.Proofs.Passes.ContextFree
import NativeBindings.Proofs.Passes.Enclosure
import NativeBindings.Proofs.Passes.ImportLedger
import NativeBindings.Proofs.Passes.Isolation
import NativeBindings.Proofs.Passes.Redeclaration
import NativeBindings.Proofs.Passes.Settlement
import NativeBindings.Proofs.Storage.PathComponents
import NativeBindings.Proofs.Symbol.Numbering
import NativeBindings.Proofs.Text.Blank
import NativeBindings.Proofs.Text.Cursor
import NativeBindings.Proofs.Text.Quotation
import NativeBindings.Proofs.Version.Spelling
import NativeBindings.Storage.FileTree
