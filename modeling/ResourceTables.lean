import ResourceTables.Inspection
import ResourceTables.Json.Reading
import ResourceTables.Main
import ResourceTables.Proofs.Atomicity
import ResourceTables.Proofs.Pairs
import ResourceTables.Proofs.References
import ResourceTables.Proofs.Drawings
import ResourceTables.Proofs.Owners
import ResourceTables.Proofs.Precedence
import ResourceTables.Proofs.Leftovers
import ResourceTables.Proofs.Specified
import ResourceTables.Proofs.Completions
import ResourceTables.Proofs.Inherited
import ResourceTables.Proofs.Determined
import ResourceTables.Proofs.Derived
import ResourceTables.Proofs.Reordered
import ResourceTables.Proofs.Permanence
import ResourceTables.Proofs.Retries
import ResourceTables.Proofs.Keyless
import ResourceTables.Proofs.Shared
import ResourceTables.Proofs.Vocabulary
import ResourceTables.Proofs.Identifiers
import ResourceTables.Proofs.Files
import ResourceTables.Proofs.Stores
import ResourceTables.Proofs.Hosts
import ResourceTables.Proofs.Closures
import ResourceTables.Proofs.Cycles
import ResourceTables.Proofs.Entries
import ResourceTables.Proofs.AutomaticKeys
import ResourceTables.Proofs.Pairings
import ResourceTables.Proofs.KeyNames
import ResourceTables.Proofs.Statements
import ResourceTables.Proofs.Depths
import ResourceTables.Proofs.Duplicates
import ResourceTables.Proofs.Coverage
import ResourceTables.Proofs.Methods
