import RefRules.Main
import RefRules.Proofs.Dynamic
import RefRules.Proofs.NamedHops
import RefRules.Proofs.Conditions
import RefRules.Proofs.Segments
import RefRules.Proofs.Imports
import RefRules.Proofs.Lines
import RefRules.Proofs.Printing
import RefRules.Proofs.Failures
import RefRules.Proofs.SessionHistory
import RefRules.Proofs.Nesting
import RefRules.Proofs.StaticRoots
import RefRules.Proofs.WalkSafety
import RefRules.Proofs.Spellings
import RefRules.Proofs.ArrayReading
import RefRules.Proofs.ArrayElements
import RefRules.Proofs.TypeSpecs
import RefRules.Proofs.PathNames
import RefRules.Proofs.Descriptions
import RefRules.Proofs.FieldSearch
import RefRules.Proofs.NestingPaths
import RefRules.Proofs.Questions
import RefRules.Proofs.SegmentEnds
import RefRules.Proofs.WordArithmetic
