import BucketCare.Capability
import BucketCare.Command.Arguments
import BucketCare.Command.Buckets
import BucketCare.Command.Completion
import BucketCare.Command.Configuration
import BucketCare.Command.Diagnosis
import BucketCare.Command.Invocation
import BucketCare.Command.Listing
import BucketCare.Command.Pending
import BucketCare.Command.Program
import BucketCare.Command.Recovery
import BucketCare.Command.UploadTree
import BucketCare.Command.World
import BucketCare.Csv
import BucketCare.Decimal
import BucketCare.Deletion.Batcher
import BucketCare.Error
import BucketCare.Files.LocalFile
import BucketCare.Files.Node
import BucketCare.Files.Route
import BucketCare.Files.Tree
import BucketCare.Instant
import BucketCare.Json
import BucketCare.Listing.Objects
import BucketCare.Listing.Uploads
import BucketCare.Listing.Versions
import BucketCare.Main
import BucketCare.Masking
import BucketCare.Paging
import BucketCare.Path
import BucketCare.Policy
import BucketCare.Proofs.Child
import BucketCare.Proofs.Command.Copying
import BucketCare.Proofs.Command.Deleting
import BucketCare.Proofs.Command.Delivery
import BucketCare.Proofs.Command.Gathering
import BucketCare.Proofs.Command.Keeping
import BucketCare.Proofs.Command.Leading
import BucketCare.Proofs.Command.Listing
import BucketCare.Proofs.Command.Naming
import BucketCare.Proofs.Command.Outputs
import BucketCare.Proofs.Command.Purging
import BucketCare.Proofs.Command.Replies
import BucketCare.Proofs.Command.Scope
import BucketCare.Proofs.Command.Showing
import BucketCare.Proofs.Command.Visiting
import BucketCare.Proofs.Csv
import BucketCare.Proofs.Csv.Reading
import BucketCare.Proofs.Deletion.Batches
import BucketCare.Proofs.Deletion.KeyFiles
import BucketCare.Proofs.Deletion.Totals
import BucketCare.Proofs.Elapsed
import BucketCare.Proofs.Files.Finding
import BucketCare.Proofs.Files.Making
import BucketCare.Proofs.Files.Scanning
import BucketCare.Proofs.Files.Writing
import BucketCare.Proofs.Masking
import BucketCare.Proofs.Paging.Continuation
import BucketCare.Proofs.Paging.Exchanges
import BucketCare.Proofs.Paging.Markers
import BucketCare.Proofs.Paging.Requests
import BucketCare.Proofs.Paging.Stopping
import BucketCare.Proofs.Path
import BucketCare.Proofs.Policy.Grants
import BucketCare.Proofs.Settings.Accepted
import BucketCare.Proofs.Settings.Document
import BucketCare.Proofs.Settings.Guarded
import BucketCare.Proofs.Settings.Partial
import BucketCare.Proofs.Settings.Saved
import BucketCare.Proofs.Store.CopySource
import BucketCare.Proofs.Store.Talks
import BucketCare.Proofs.Text.Bytes
import BucketCare.Proofs.Text.Lines
import BucketCare.Proofs.Text.Percent
import BucketCare.Proofs.Text.Pieces
import BucketCare.Proofs.Text.Quoted
import BucketCare.Proofs.Toml.Document
import BucketCare.Proofs.Toml.Text
import BucketCare.Proofs.Upload.Accounting
import BucketCare.Proofs.Upload.Biggest
import BucketCare.Proofs.Upload.Complete
import BucketCare.Proofs.Upload.Crews
import BucketCare.Proofs.Upload.Delivering
import BucketCare.Proofs.Upload.Ends
import BucketCare.Proofs.Upload.Fullness
import BucketCare.Proofs.Upload.Interrupt
import BucketCare.Proofs.Upload.Moments
import BucketCare.Proofs.Upload.Order
import BucketCare.Proofs.Upload.Outcome
import BucketCare.Proofs.Upload.Panics
import BucketCare.Proofs.Upload.Parts
import BucketCare.Proofs.Upload.Resuming
import BucketCare.Proofs.Upload.Seeding
import BucketCare.Proofs.Upload.Sending
import BucketCare.Proofs.Upload.Sharing
import BucketCare.Proofs.Upload.Spans
import BucketCare.Proofs.Upload.Steps
import BucketCare.Proofs.Upload.Storing
import BucketCare.Proofs.Upload.Trace
import BucketCare.Proofs.Version.Archive
import BucketCare.Proofs.Version.Copying
import BucketCare.Proofs.Version.Ordering
import BucketCare.Proofs.Version.Pruning
import BucketCare.Proofs.Version.Restoring
import BucketCare.Proofs.Version.Undeleting
import BucketCare.Random.ChaCha
import BucketCare.Random.Source
import BucketCare.Session
import BucketCare.Settings.Basic
import BucketCare.Settings.Document
import BucketCare.Settings.Storage
import BucketCare.Store.Client
import BucketCare.Store.Credentials
import BucketCare.Store.Link
import BucketCare.Store.Operations
import BucketCare.Store.Profiles
import BucketCare.Store.Request
import BucketCare.Store.Script
import BucketCare.Table
import BucketCare.Text.Blank
import BucketCare.Text.Percent
import BucketCare.Text.Ranges
import BucketCare.Toml.Number
import BucketCare.Toml.Reader
import BucketCare.Toml.Text
import BucketCare.Toml.Value
import BucketCare.Upload.MediaType
import BucketCare.Upload.Plan
import BucketCare.Upload.Pool
import BucketCare.Upload.Report
import BucketCare.Upload.Transfer
import BucketCare.Version
import BucketCare.Version.Copying
import BucketCare.Version.Restore
