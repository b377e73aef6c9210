import AccessTransformer.CallTargets
import AccessTransformer.CommandLine.Run
import AccessTransformer.Main
import AccessTransformer.Proofs.ClassGraph.Numbering
import AccessTransformer.Proofs.ClassGraph.Reachability
import AccessTransformer.Proofs.Rules.Meaning
import AccessTransformer.Proofs.Rules.Sections
import AccessTransformer.Rules.Generation
import AccessTransformer.Rules.Spelling
import AccessTransformer.Proofs.ClassGraph.Outline
import AccessTransformer.Proofs.ClassGraph.Visits
import AccessTransformer.Proofs.ClassGraph.Renumbering
import AccessTransformer.Proofs.Archive
import AccessTransformer.Proofs.Rules.Generation
import AccessTransformer.Proofs.Rules.Undeclared
import AccessTransformer.Proofs.ClassFile.ModifiedUtf8
import AccessTransformer.Proofs.ClassFile.Pool
import AccessTransformer.Proofs.ClassFile.Written
import AccessTransformer.Proofs.ClassFile.Declaration
import AccessTransformer.Proofs.ClassFile.Instruction
import AccessTransformer.Proofs.ClassFile.Body
import AccessTransformer.Proofs.ClassFile.Calls
import AccessTransformer.Proofs.ClassGraph.Handles
import AccessTransformer.Proofs.ClassGraph.Histories
import AccessTransformer.Proofs.Descriptor
import AccessTransformer.Proofs.Rules.FieldTypes
import AccessTransformer.Proofs.Text.Lines
import AccessTransformer.Proofs.Rules.Listing
import AccessTransformer.Proofs.Rules.Legibility
import AccessTransformer.Proofs.Json.Quoted
import AccessTransformer.Proofs.Json.Number
import AccessTransformer.Proofs.Json.Value
import AccessTransformer.Proofs.Json.Tree
import AccessTransformer.Proofs.Outcomes
import AccessTransformer.Proofs.Json.Shape
import AccessTransformer.Proofs.Rules.Spelling
import AccessTransformer.Proofs.Files.FileSystem
import AccessTransformer.Proofs.Files.Save
import AccessTransformer.Proofs.Files.Session
import AccessTransformer.Proofs.CommandLine.Run
import AccessTransformer.Proofs.Text.Order
import AccessTransformer.Proofs.CallTargets
import AccessTransformer.Proofs.Rules.Blocks
import AccessTransformer.Proofs.ClassFile.Truncation
import AccessTransformer.Proofs.ClassFile.Agreement
import AccessTransformer.Proofs.Rules.UnknownKeys
import AccessTransformer.Proofs.Rules.Modifier
import AccessTransformer.Proofs.Rules.Resolution
import AccessTransformer.Proofs.Archive.Walk
import AccessTransformer.Proofs.ClassGraph.Flags
import AccessTransformer.Proofs.Rules.Granting
import AccessTransformer.Proofs.ClassGraph.Growth
import AccessTransformer.Proofs.Rules.Growth
import AccessTransformer.Proofs.Rules.Satisfaction
import AccessTransformer.Proofs.Descriptor.Reading
import AccessTransformer.Proofs.ClassGraph.FieldDescriptors
import AccessTransformer.Proofs.Files.Paths
import AccessTransformer.Proofs.Files.Clearing
import AccessTransformer.Proofs.Files.Trees
import AccessTransformer.Proofs.Patches
import AccessTransformer.Proofs.CommandLine.Apply
import AccessTransformer.Proofs.Rules.FieldNames
import AccessTransformer.Proofs.Rules.ReturnTypes
import AccessTransformer.Proofs.CommandLine.Accepted
import AccessTransformer.Proofs.ClassFile.InPlace.Reading
