import KeyWrapping.Params.Json
import KeyWrapping.Proofs.Binding
import KeyWrapping.Proofs.Consumption
import KeyWrapping.Proofs.Disclosure
import KeyWrapping.Proofs.Layout
import KeyWrapping.Proofs.Rotation
import KeyWrapping.Proofs.Tampering
import KeyWrapping.Proofs.TextForm
import KeyWrapping.Proofs.WrongPassword
import KeyWrapping.Report
import KeyWrapping.Session
import KeyWrapping.Standard.Gcm
import KeyWrapping.Standard.Pbkdf2
import KeyWrapping.Proofs.Derivation
import KeyWrapping.Proofs.Interchange
import KeyWrapping.Proofs.Published.Digest
import KeyWrapping.Proofs.Published.Stretching
import KeyWrapping.Proofs.Published.ByteField
import KeyWrapping.Proofs.Published.BlockCipher
import KeyWrapping.Proofs.Published.BlockHash
import KeyWrapping.Proofs.Published.Sealing
import KeyWrapping.Proofs.Collecting
import KeyWrapping.Proofs.Identity
import KeyWrapping.Proofs.Json.Outcomes
import KeyWrapping.Proofs.Json.Scrutiny
import KeyWrapping.Proofs.Json.Decimal
import KeyWrapping.Proofs.Json.Nesting
import KeyWrapping.Proofs.Json.Spelling
import KeyWrapping.Proofs.Loading
import KeyWrapping.Proofs.Retrying
import KeyWrapping.Proofs.Storing
import KeyWrapping.Proofs.Unreadable
