import Gatehouse.Main
import Gatehouse.Proofs.AutoComplete
import Gatehouse.Proofs.BranchCalls
import Gatehouse.Proofs.BranchMembers
import Gatehouse.Proofs.ConditionMeaning
import Gatehouse.Proofs.Receivers
import Gatehouse.Proofs.SchoolPaths
import Gatehouse.Proofs.StepChange
import Gatehouse.Proofs.ResolutionDomain
import Gatehouse.Proofs.CodeReading
import Gatehouse.Proofs.LeftOut
import Gatehouse.Proofs.CommandLoading
import Gatehouse.Proofs.BlockBalance
import Gatehouse.Proofs.Normalization
import Gatehouse.Proofs.GenerateAll
import Gatehouse.Proofs.PathOverlap
import Gatehouse.Proofs.DependencyLinks
import Gatehouse.Proofs.Negation
import Gatehouse.Proofs.FieldLiterals
import Gatehouse.Proofs.FieldNames
import Gatehouse.Proofs.JsonLoading
import Gatehouse.Proofs.TargetReach
import Gatehouse.Proofs.CollegeCalls
import Gatehouse.Proofs.CompileFailures
import Gatehouse.Proofs.UnusedDeclarations
import Gatehouse.Proofs.LookupGuards
import Gatehouse.Proofs.ClassExport
