import MeraBriar.Crypto.Basic
import MeraBriar.Crypto.Sample
import MeraBriar.Crypto.KeyManagement
import MeraBriar.Crypto.Session
import MeraBriar.Crypto.Encryption
import MeraBriar.Crypto.Engine
import MeraBriar.Crypto.Ratchet
import MeraBriar.Crypto.Handshake
import MeraBriar.Crypto.MessageKeys
import MeraBriar.Crypto.Concurrency
import MeraBriar.Crypto.Linearizability
import MeraBriar.Crypto.Network
import MeraBriar.Sync.Queue
import MeraBriar.Transport.Manager
import MeraBriar.Message.Status
import MeraBriar.Storage.Database
