import Strongbox.Session.Run
import Strongbox.Main
import Strongbox.Proofs.MarkedText
import Strongbox.Proofs.Files.Directories
import Strongbox.Proofs.KeyFile
import Strongbox.Proofs.Processes
import Strongbox.Proofs.Tampering
import Strongbox.Proofs.TextEnvelope
import Strongbox.Proofs.Callers.OneKey
import Strongbox.Proofs.Session.FreshVectors
import Strongbox.Proofs.Properties.Ownership
import Strongbox.Proofs.Properties.Outcome
import Strongbox.Proofs.Json.Rendering
import Strongbox.Proofs.Properties.Documents
import Strongbox.Proofs.KeyStore
import Strongbox.Proofs.Session.Keeping
import Strongbox.Proofs.CommandLine.Arguments
import Strongbox.Proofs.CommandLine.Opening
import Strongbox.Proofs.Numerals
import Strongbox.Proofs.Password
import Strongbox.Proofs.CommandLine.RoundTrip
import Strongbox.Proofs.Files.Climbing
import Strongbox.Proofs.Keys.Spelling
import Strongbox.Proofs.Secrecy.Outline
import Strongbox.Proofs.Secrecy.SideBySide
import Strongbox.Proofs.Secrecy.KeyFile
import Strongbox.Proofs.Secrecy.Conversions
import Strongbox.Proofs.Secrecy.Properties
import Strongbox.Proofs.Secrecy.Script
import Strongbox.Proofs.Password.Requests
import Strongbox.Proofs.Settings.Fields
import Strongbox.Proofs.CommandLine.Frame
import Strongbox.Proofs.KeyFile.Interruption
import Strongbox.Proofs.Attempts
import Strongbox.Proofs.KeyFile.Reporting
