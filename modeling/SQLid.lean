import SQLid.Library.Programs
import SQLid.Library.Bytes
import SQLid.Library.CppText
import SQLid.Library.Ieee
import SQLid.Variants
import SQLid.Conditions
import SQLid.TabbleInfo
import SQLid.MemoryMapLinux
import SQLid.MemoryMap
import SQLid.Tabble
import SQLid.StorageLaws
import SQLid.Library.SlotPool
import SQLid.TabbleLaws
import SQLid.TabbleOps
import SQLid.TabbleLife
import SQLid.TabbleOpen
import SQLid.FreeList
import SQLid.RowMap
import SQLid.Query
import SQLid.RequestParser
import SQLid.Grammar
import SQLid.Rendering
import SQLid.NearMisses
import SQLid.Acceptance
import SQLid.Optimizer
import SQLid.Executor
import SQLid.Library.Scan
import SQLid.Reads
import SQLid.Rows
import SQLid.DataBase
import SQLid.OptimizerLaws
import SQLid.Service
import SQLid.Requests
import SQLid.Clauses
import SQLid.Statements
import SQLid.ScanLaws
import SQLid.Library.Pieces
import SQLid.Connection
import SQLid.Library.Interleave
import SQLid.Clients
import SQLid.ClientAlone
import SQLid.StorageSteps
import SQLid.Library.SharedPool
import SQLid.ClientRules
import SQLid.Allocation
import SQLid.Library.Versions
import SQLid.RowVersions
import SQLid.Scans
import SQLid.LineWrites
import SQLid.Spares
import SQLid.PlaceCounts
import SQLid.Updates
import SQLid.UpdateFailures
import SQLid.UpdateTexts
import SQLid.Deletes
import SQLid.RawConditions
import SQLid.ConditionSafety
import SQLid.SortKeys
import SQLid.Selects
import SQLid.Library.StableSort
import SQLid.Inserts
import SQLid.InsertedRows
import SQLid.ReportedIds
import SQLid.Agreement
import SQLid.RowOrder
import SQLid.InsertedSearch
import SQLid.Replies
import SQLid.Paths
import SQLid.Disk
import SQLid.Restores
import SQLid.RestoreTargets
import SQLid.Reported
import SQLid.AllOrNothing
import SQLid.Library.Layers
import SQLid.FileSystem
import SQLid.Commands
import SQLid.SchemaFile
import SQLid.System
import SQLid.SyncServer
import SQLid.Registry
import SQLid.Sessions
import SQLid.TableCreation
import SQLid.CreatedTables
import SQLid.NameResolution
import SQLid.ColumnNames
import SQLid.Outcomes
import SQLid.IdClauses
import SQLid.IdSearches
import SQLid.IdAgreement
import SQLid.Library.MissingKeys
import SQLid.ComparatorLaws
import SQLid.StorageGuards
import SQLid.CommandForms
import SQLid.IntegerLiterals
import SQLid.GrowthFailures
import SQLid.FailedCommands
import SQLid.Library.Traces
import SQLid.AccessCosts
import SQLid.Library.GrownTree
import SQLid.DiskCopies
import SQLid.Backups
import SQLid.Library.Keeping
import SQLid.StorageKeeping
import SQLid.StoredTables
import SQLid.StoredBases
import SQLid.SharedFiles
import SQLid.Library.Archive
import SQLid.Catalogue
import SQLid.NewTables
import SQLid.CatalogueUpdates
import SQLid.CatalogueCommands
import SQLid.CatalogueStarts
import SQLid.CatalogueRuns
import SQLid.Histories
import SQLid.Durability
import SQLid.LineBounds
