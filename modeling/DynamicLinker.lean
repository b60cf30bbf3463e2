import DynamicLinker.Session
import DynamicLinker.Proofs.Publication
import DynamicLinker.Proofs.Components
import DynamicLinker.Proofs.FailedLoads
import DynamicLinker.Proofs.Preorder
import DynamicLinker.Proofs.Runs
import DynamicLinker.Proofs.DeclaredTrees
import DynamicLinker.Proofs.Scopes
import DynamicLinker.Proofs.Bindings
import DynamicLinker.Proofs.BreadthFirst
import DynamicLinker.Proofs.RelocationScopes
import DynamicLinker.Proofs.InitializationOrder
import DynamicLinker.Proofs.Issuing
import DynamicLinker.Proofs.Retention
import DynamicLinker.Proofs.GlobalScope
import DynamicLinker.Proofs.Openings
import DynamicLinker.Proofs.Handles
import DynamicLinker.Proofs.Fetches
import DynamicLinker.Proofs.LoadOrder
import DynamicLinker.Proofs.Descriptions
import DynamicLinker.Proofs.Retries
import DynamicLinker.Proofs.Repetition
import DynamicLinker.Proofs.GlobalSet
import DynamicLinker.Proofs.Initializations
import DynamicLinker.Proofs.Courses
import DynamicLinker.Proofs.FirstFailure
import DynamicLinker.Proofs.Termination
import DynamicLinker.Proofs.Promotion
import DynamicLinker.Proofs.LaterPromotion
import DynamicLinker.Proofs.Trees
import DynamicLinker.Proofs.Levels
import DynamicLinker.Proofs.Since
import DynamicLinker.Proofs.NameIndex
import DynamicLinker.Proofs.ErrorSlots
import DynamicLinker.Proofs.Positions
import DynamicLinker.Proofs.Precedence
import DynamicLinker.Proofs.Room
