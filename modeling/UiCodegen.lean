import UiCodegen.Files.Store
import UiCodegen.Main
import UiCodegen.Proofs.Acceptance
import UiCodegen.Proofs.AliasCircles
import UiCodegen.Proofs.AliasValues
import UiCodegen.Proofs.CallArity
import UiCodegen.Proofs.ConstantExpressions
import UiCodegen.Proofs.ConstantRows
import UiCodegen.Proofs.DraftEquality
import UiCodegen.Proofs.FormattingDepth
import UiCodegen.Proofs.GridTemplates
import UiCodegen.Proofs.IdResolution
import UiCodegen.Proofs.Identifiers
import UiCodegen.Proofs.IntegerReaders
import UiCodegen.Proofs.NumericConstants
import UiCodegen.Proofs.ObjectLookups
import UiCodegen.Proofs.PointerText
import UiCodegen.Proofs.ReaderNames
import UiCodegen.Proofs.Resolution
import UiCodegen.Proofs.SignatureClasses
import UiCodegen.Proofs.StaticNames
import UiCodegen.Proofs.StringForms
import UiCodegen.Proofs.Substitution
import UiCodegen.Proofs.WarningComments
import UiCodegen.Proofs.WellScoped
import UiCodegen.Proofs.CItems
