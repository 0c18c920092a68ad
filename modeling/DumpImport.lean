import DumpImport.Load.Interleaving
import DumpImport.Main
import DumpImport.Proofs.Cipher.Streaming
import DumpImport.Proofs.Dump.Lines
import DumpImport.Proofs.Dump.Sidecar
import DumpImport.Proofs.Gzip.Checksum
import DumpImport.Proofs.KeyService.Crosstalk
import DumpImport.Proofs.KeyService.Retries
import DumpImport.Proofs.Load.Aborted
import DumpImport.Proofs.Load.Accounting
import DumpImport.Proofs.Record.Bounds
import DumpImport.Proofs.Record.CanonicalDate
import DumpImport.Proofs.Record.Exposure
import DumpImport.Proofs.Record.Idempotence
import DumpImport.Proofs.Record.KeyEquality
import DumpImport.Proofs.Record.Layout
import DumpImport.Proofs.Record.StorageKey
import DumpImport.Proofs.Record.Version
import DumpImport.Proofs.Record.Deletion
import DumpImport.Proofs.Record.Normalization
import DumpImport.Proofs.Record.Alterations
import DumpImport.Proofs.Record.Flattening
import DumpImport.Proofs.Record.UnixTime
import DumpImport.Proofs.Text.Pattern
import DumpImport.Load.Appending
import DumpImport.Proofs.Dump.FileName
import DumpImport.Proofs.Json.Printable
import DumpImport.Proofs.Load.Appending
import DumpImport.Proofs.Load.StoredLines
import DumpImport.Proofs.Retry.Backoff
import DumpImport.Proofs.Record.PrintedKey
import DumpImport.Proofs.KeyService.Requests
