import EntityForge.Files.Workspace
import EntityForge.JavaClass.Imports
import EntityForge.Json.Writer
import EntityForge.Main
import EntityForge.Metamodel.Writer
import EntityForge.Proofs.Accounting
import EntityForge.Proofs.Agreement
import EntityForge.Proofs.Ancestry
import EntityForge.Proofs.AnnotationReading
import EntityForge.Proofs.Coherence
import EntityForge.Proofs.ConstraintMeaning
import EntityForge.Proofs.DecimalGrammar
import EntityForge.Proofs.DeclarationOrder
import EntityForge.Proofs.EqualityContract
import EntityForge.Proofs.FieldMemo
import EntityForge.Proofs.ImportClosure
import EntityForge.Proofs.Inertness
import EntityForge.Proofs.MetamodelReading
import EntityForge.Proofs.NamedTypes
import EntityForge.Proofs.Occurrence
import EntityForge.Proofs.Planning
import EntityForge.Proofs.PrimeDraws
import EntityForge.Proofs.Rendering
import EntityForge.Proofs.SourceFiles
import EntityForge.Proofs.SpelledDefaults
import EntityForge.Proofs.StageIsolation
import EntityForge.Proofs.Steadiness
import EntityForge.Proofs.TaggedVariation
import EntityForge.Proofs.Variation
import EntityForge.Proofs.WrittenSources
import EntityForge.Proofs.Writing
import EntityForge.Proofs.DrawnPairs
import EntityForge.Proofs.MemoFreeAssembly
import EntityForge.Proofs.OperationLog
import EntityForge.Proofs.Descriptor
import EntityForge.Proofs.Lineage
import EntityForge.Proofs.ConstructorReading
import EntityForge.Proofs.DeclaredConstructors
import EntityForge.Proofs.KeyClasses
import EntityForge.Proofs.VisibleNames
import EntityForge.Proofs.TypeTokens
import EntityForge.Proofs.ConstrainedTypes
import EntityForge.Proofs.IntegerLiterals
import EntityForge.Proofs.ParameterizedTypes
import EntityForge.Proofs.StringReading
import EntityForge.Proofs.TextReading
import EntityForge.Proofs.MethodSignatures
import EntityForge.Proofs.ArrayTypes
import EntityForge.Proofs.ImportStatements
import EntityForge.Proofs.FieldComments
import EntityForge.Files.Disk
import EntityForge.Proofs.AtomicWriting
import EntityForge.Proofs.TrialDivision
import EntityForge.Proofs.NearestPrime
