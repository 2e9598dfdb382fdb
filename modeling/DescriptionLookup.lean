import DescriptionLookup.Marking.Derive
import DescriptionLookup.Disk.FileSystem
import DescriptionLookup.Main
import DescriptionLookup.Proofs.Recursion
import DescriptionLookup.Proofs.Agreement
import DescriptionLookup.Proofs.Journal
import DescriptionLookup.Proofs.Derivation
import DescriptionLookup.Proofs.RepeatedSearches
import DescriptionLookup.Proofs.Guesses
import DescriptionLookup.Proofs.Aliases
import DescriptionLookup.Proofs.Bodies
import DescriptionLookup.Proofs.Regions
import DescriptionLookup.Proofs.Selections
import DescriptionLookup.Proofs.TestModules
import DescriptionLookup.Proofs.Inputs
import DescriptionLookup.Proofs.EmittedCode
import DescriptionLookup.Proofs.Lookups
import DescriptionLookup.Proofs.Parts
import DescriptionLookup.Proofs.Reordering
import DescriptionLookup.Proofs.Trails
import DescriptionLookup.Proofs.Extraction
import DescriptionLookup.Proofs.Verdicts
import DescriptionLookup.Proofs.Layers
import DescriptionLookup.Proofs.ParsedItems
import DescriptionLookup.Proofs.Shadowing
import DescriptionLookup.Proofs.WrittenPaths
import DescriptionLookup.Proofs.LoadedCrates
import DescriptionLookup.Proofs.CanonicalPaths
import DescriptionLookup.Proofs.Enclosed
import DescriptionLookup.Proofs.Nameability
import DescriptionLookup.Proofs.Directories
import DescriptionLookup.Proofs.Layout
import DescriptionLookup.Proofs.PathAttributes
import DescriptionLookup.Proofs.EndlessLoading
import DescriptionLookup.Proofs.FileOrder
import DescriptionLookup.Proofs.DiskChanges
import DescriptionLookup.Proofs.WrittenFiles
import DescriptionLookup.Proofs.TextPieces
import DescriptionLookup.Proofs.Acceptance
import DescriptionLookup.Proofs.AcceptedTypes
import DescriptionLookup.Proofs.AcceptedExpressions
import DescriptionLookup.Proofs.AcceptedStatements
import DescriptionLookup.Proofs.AcceptedItems
import DescriptionLookup.Proofs.AcceptedGenerics
import DescriptionLookup.Proofs.PrintedTrees
import DescriptionLookup.Proofs.PrintedParameters
import DescriptionLookup.Proofs.RenderedLookups
import DescriptionLookup.Proofs.ReadableUnits
import DescriptionLookup.Proofs.Repetitions
import DescriptionLookup.Proofs.WellFormedUnits
import DescriptionLookup.Proofs.Registrations
import DescriptionLookup.Proofs.UnmarkedEnums
import DescriptionLookup.Proofs.Questions
import DescriptionLookup.Proofs.OutputModes
import DescriptionLookup.Proofs.CallDepths
import DescriptionLookup.Proofs.ImportChains
import DescriptionLookup.Proofs.ExternAliases
import DescriptionLookup.Proofs.UnrelatedCrates
import DescriptionLookup.Proofs.MemberCursors
import DescriptionLookup.Proofs.DescriptionTexts
import DescriptionLookup.Proofs.PrintedGates
import DescriptionLookup.Proofs.AttributeNames
import DescriptionLookup.Proofs.GroupedImports
import DescriptionLookup.Proofs.PrintedModules
