import Credentials.Secret.Service
import Credentials.Token.Issuer
import Credentials.Token.Verifier
import Credentials.Proofs.Secret.Accounts
import Credentials.Proofs.Secret.Address
import Credentials.Proofs.Secret.Canonical
import Credentials.Proofs.Secret.Counters
import Credentials.Proofs.Secret.Exposure
import Credentials.Proofs.Secret.Secrecy
import Credentials.Proofs.Secret.Settings
import Credentials.Proofs.Secret.Sharing
import Credentials.Proofs.Secret.Warnings
import Credentials.Proofs.Token.Audience
import Credentials.Proofs.Token.Content
import Credentials.Proofs.Token.Header
import Credentials.Proofs.Token.Lifetime
import Credentials.Proofs.Token.Members
import Credentials.Proofs.Token.Preference
import Credentials.Proofs.Token.Pruning
import Credentials.Proofs.Token.Refusal
import Credentials.Proofs.Token.Representation
import Credentials.Proofs.Token.Revocation
import Credentials.Proofs.Token.Rotation
import Credentials.Proofs.Token.Standing
