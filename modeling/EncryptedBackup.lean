import EncryptedBackup.Keyring.Toy
import EncryptedBackup.World.Archive
import EncryptedBackup.World.Script
import EncryptedBackup.World
import EncryptedBackup.Main
import EncryptedBackup.Proofs.Text.Utf8
import EncryptedBackup.Proofs.Crypto.Field256
import EncryptedBackup.Proofs.Crypto.Aes
import EncryptedBackup.Proofs.Crypto.Cbc
import EncryptedBackup.Proofs.Wire.Fields
import EncryptedBackup.Proofs.Wire.Framing
import EncryptedBackup.Proofs.Wire.Names
import EncryptedBackup.Proofs.Wire.Payloads
import EncryptedBackup.Proofs.Wire.Acceptance
import EncryptedBackup.Proofs.Text.Cut
import EncryptedBackup.Proofs.Wire.Recoding
import EncryptedBackup.Proofs.Wire.Stream
import EncryptedBackup.Proofs.Wire.Responses
import EncryptedBackup.Proofs.World.Conversation
import EncryptedBackup.Proofs.World.Run
import EncryptedBackup.Proofs.World.Watch
import EncryptedBackup.Proofs.World.Reading
import EncryptedBackup.Proofs.Wire.Answers
import EncryptedBackup.Proofs.Checksum.Reads
import EncryptedBackup.Proofs.Upload.Slices
import EncryptedBackup.Proofs.Upload.Course
import EncryptedBackup.Proofs.Upload.Delivery
import EncryptedBackup.Proofs.Handshake.Rounds
import EncryptedBackup.Proofs.Handshake.Steps
import EncryptedBackup.Proofs.Handshake.Standing
import EncryptedBackup.Proofs.Handshake.Pairing
import EncryptedBackup.Proofs.Handshake.Resumption
import EncryptedBackup.Proofs.Handshake.Trace
import EncryptedBackup.Proofs.Upload.ReadOnly
import EncryptedBackup.Proofs.World.Disk
import EncryptedBackup.Proofs.Text.Lines
import EncryptedBackup.Proofs.Text.Base64
import EncryptedBackup.Proofs.Crypto.Keyrings
import EncryptedBackup.Proofs.Handshake.Filing
import EncryptedBackup.Proofs.Text.Hex
import EncryptedBackup.Proofs.Handshake.Timeline
import EncryptedBackup.Proofs.Upload.Guard
import EncryptedBackup.Proofs.Handshake.Agreement
import EncryptedBackup.Proofs.Handshake.Admission
import EncryptedBackup.Proofs.Client.Opening
import EncryptedBackup.Proofs.Client.Returning
import EncryptedBackup.Proofs.World.Echo
import EncryptedBackup.Proofs.World.Twins
import EncryptedBackup.Proofs.Upload.Discretion
import EncryptedBackup.Proofs.Handshake.Discretion
import EncryptedBackup.Proofs.Client.Discretion
import EncryptedBackup.Proofs.Slicer.History
import EncryptedBackup.Proofs.Slicer.Partition
import EncryptedBackup.Proofs.Slicer.Alignment
import EncryptedBackup.Proofs.World.Deeds
import EncryptedBackup.Proofs.Upload.Dealings
import EncryptedBackup.Proofs.Upload.Preflight
import EncryptedBackup.Proofs.Machine
import EncryptedBackup.Proofs.Machine.Relating
import EncryptedBackup.Proofs.Slicer.Counters
import EncryptedBackup.Proofs.Upload.Range
import EncryptedBackup.Proofs.Checksum.Polynomial
import EncryptedBackup.Proofs.Checksum.Damage
import EncryptedBackup.Proofs.Upload.Damage
import EncryptedBackup.Proofs.Checksum.Streaming
import EncryptedBackup.Proofs.Crypto.Octets
import EncryptedBackup.Proofs.Crypto.Der
import EncryptedBackup.Proofs.Crypto.Rsa.Encoding
import EncryptedBackup.Proofs.Crypto.Oaep
import EncryptedBackup.Proofs.Crypto.Sealing
import EncryptedBackup.Proofs.Keyring.Generation
import EncryptedBackup.Proofs.Keyring.Saving
import EncryptedBackup.Proofs.Keyring.Wrapping
import EncryptedBackup.Proofs.Handshake.Provenance
import EncryptedBackup.Proofs.Text.Decimal
import EncryptedBackup.Proofs.Text.Entries
import EncryptedBackup.Proofs.Job.Grammar
import EncryptedBackup.Proofs.World.Setup
import EncryptedBackup.Proofs.Identity.Memory
import EncryptedBackup.Proofs.Identity.ClientIds
import EncryptedBackup.Proofs.CommandLine.Wishes
import EncryptedBackup.Proofs.CommandLine.Mentions
import EncryptedBackup.Proofs.CommandLine.Spelling
