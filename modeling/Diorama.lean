import Diorama.Scene.Json
import Diorama.Sampling.Evaluate
import Diorama.Sampling.Json
import Diorama.Optimizer.Json
import Diorama.Code.Json
import Diorama.Code.Scribe
import Diorama.Code.CSharp
import Diorama.Code.CppCx
import Diorama.Gallery
import Diorama.Proofs.Indexing
import Diorama.Proofs.Indexability
import Diorama.Proofs.DisjointSets
import Diorama.Proofs.Renaming
import Diorama.Proofs.LeastCongruence
import Diorama.Proofs.Outcome
import Diorama.Proofs.Likeness
import Diorama.Proofs.Counterparts
import Diorama.Proofs.PartSampling
import Diorama.Proofs.TreeSampling
import Diorama.Proofs.CopiedPicture
import Diorama.Proofs.WordScalars
import Diorama.Proofs.Stillness
import Diorama.Proofs.Edits
import Diorama.Proofs.ReductionSteps
import Diorama.Proofs.PushedMatrices
import Diorama.Proofs.ReducedPicture
import Diorama.Proofs.ExactPlaces
import Diorama.Proofs.CopiedObjects
import Diorama.Proofs.QuotientCopy
import Diorama.Proofs.SettledScenes
import Diorama.Proofs.EditedObjects
import Diorama.Proofs.ReductionSettles
import Diorama.Proofs.ReductionFrame
import Diorama.Proofs.ReductionEnergy
import Diorama.Proofs.ReductionEnds
import Diorama.Proofs.CopySuccess
import Diorama.Proofs.OptimizerRuns
import Diorama.Proofs.Projection
import Diorama.Proofs.RenamedScenes
import Diorama.Proofs.SecondRun
import Diorama.Proofs.ArenaOrder
import Diorama.Proofs.DistinctNames
import Diorama.Proofs.StatementViews
import Diorama.Proofs.BodyDrafts
import Diorama.Proofs.MethodCalls
import Diorama.Proofs.MethodRuns
import Diorama.Proofs.Instantiation
import Diorama.Proofs.RenumberedIndex
import Diorama.Proofs.Renumbering
import Diorama.Proofs.WrittenCode
import Diorama.Proofs.JsonReading
import Diorama.Proofs.StoredObjects
import Diorama.Proofs.StoredScenes
import Diorama.Proofs.Duplicates
import Diorama.Proofs.UnsetDefaults
import Diorama.Proofs.KindCounts
import Diorama.Proofs.DrawnPlaces
import Diorama.Proofs.SamplingErrors
import Diorama.Proofs.InterruptedPushes
import Diorama.Proofs.FiledReferences
import Diorama.Proofs.BaseNames
import Diorama.Proofs.NumberedNames
import Diorama.Proofs.Identifiers
import Diorama.Proofs.EmittedScenes
import Diorama.Proofs.MethodOrder
import Diorama.Proofs.SpelledLines
import Diorama.Proofs.CalledReferences
import Diorama.Proofs.TextLiterals
import Diorama.Proofs.CommentLines
import Diorama.Proofs.PlaneTransforms
import Diorama.Proofs.NestedOutlines
import Diorama.Proofs.Periodicity
import Diorama.Proofs.ControlCharacters
import Diorama.Proofs.DepthFirst
import Diorama.Proofs.AcyclicClasses
import Diorama.Proofs.ForestRuns
import Diorama.Proofs.ExactKeys
import Diorama.Proofs.KeyFrameSpans
