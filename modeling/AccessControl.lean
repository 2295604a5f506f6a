import AccessControl.Acl.Json
import AccessControl.Configuration
import AccessControl.Domains
import AccessControl.Proofs.AclHistory
import AccessControl.Proofs.AclQueries
import AccessControl.Proofs.AuditTrail
import AccessControl.Proofs.BuildAttempts
import AccessControl.Proofs.CallerMapping
import AccessControl.Proofs.ChainExchange
import AccessControl.Proofs.ChainMonotone
import AccessControl.Proofs.ChainNeutral
import AccessControl.Proofs.ChainRelaxation
import AccessControl.Proofs.DomainCollection
import AccessControl.Proofs.DomainHistory
import AccessControl.Proofs.DomainRuns
import AccessControl.Proofs.DomainSpelling
import AccessControl.Proofs.Entitlements
import AccessControl.Proofs.JsonText
import AccessControl.Proofs.LayerEntries
import AccessControl.Proofs.ListOptions
import AccessControl.Proofs.ManagerAudit
import AccessControl.Proofs.PermissionItems
import AccessControl.Proofs.QuestionAttempts
import AccessControl.Proofs.RoleContainment
import AccessControl.Proofs.RoleEdits
import AccessControl.Proofs.RoleGain
import AccessControl.Proofs.RoleLinks
import AccessControl.Proofs.RoleQuestions
import AccessControl.Proofs.RoleSets
import AccessControl.Proofs.RoleStorage
import AccessControl.Proofs.StoreRuns
import AccessControl.Proofs.SubjectIdentity
import AccessControl.Proofs.ResourceStorage
import AccessControl.Proofs.TrustOpinions
import AccessControl.Proofs.TrustRun
import AccessControl.Scripted
import AccessControl.SortedMap.Lemmas
