import Storyboard.Element.Markup
import Storyboard.Scope.Survey
import Storyboard.Loader
import Storyboard.Project
import Storyboard.Proofs.OutermostEdits
import Storyboard.Proofs.LexicalScoping
import Storyboard.Proofs.DanglingImports
import Storyboard.Proofs.Outline
import Storyboard.Proofs.Rereading
import Storyboard.Proofs.RemainingImports
import Storyboard.Proofs.SecondRun
import Storyboard.Proofs.JsonReading
import Storyboard.Proofs.SlotContents
import Storyboard.Proofs.CacheEntries
import Storyboard.Proofs.PathNames
import Storyboard.Proofs.DiskChanges
import Storyboard.Proofs.KeptExtractions
import Storyboard.Proofs.CacheTransparency
import Storyboard.Proofs.SourcesBelow
import Storyboard.Proofs.WriteConfinement
import Storyboard.Proofs.StraightPaths
import Storyboard.Proofs.PlaceholderText
import Storyboard.Proofs.TextRanges
import Storyboard.Proofs.VerbatimSources
import Storyboard.Proofs.ChildRegrouping
import Storyboard.Proofs.ForwardSplice
import Storyboard.Proofs.EditRanges
import Storyboard.Proofs.JobPlaces
import Storyboard.Proofs.JobOrder
import Storyboard.Proofs.OrderIndependence
import Storyboard.Proofs.OwnFields
import Storyboard.Proofs.BoardDocument
import Storyboard.Proofs.FilesInDirectory
import Storyboard.Proofs.LastKept
import Storyboard.Proofs.SlotGrouping
import Storyboard.Proofs.ElementSettings
import Storyboard.Proofs.LoweringFailures
import Storyboard.Proofs.MarkerArity
import Storyboard.Proofs.UnknownNames
import Storyboard.Proofs.LoaderDeclaration
import Storyboard.Proofs.SheetGate
import Storyboard.Proofs.TrackedState
import Storyboard.Proofs.SlotOverride
import Storyboard.Proofs.UnreadableEntries
import Storyboard.Proofs.EmbeddedExpressions
import Storyboard.Proofs.RestatedImports
import Storyboard.Proofs.KeptSettings
import Storyboard.Proofs.DeclaredPlaces
import Storyboard.Proofs.TextLiterals
import Storyboard.Proofs.IndexedFunctions
import Storyboard.Proofs.ReadForms
import Storyboard.Proofs.WrittenTexts
import Storyboard.Proofs.WrittenStatements
import Storyboard.Proofs.UnnamedFunctions
import Storyboard.Proofs.LoadedFunctions
import Storyboard.Proofs.BuiltScopes
import Storyboard.Proofs.ScopeBalance
import Storyboard.Proofs.NameQueries
import Storyboard.Proofs.TextPlaces
