import Woeful.Bounds
import Woeful.Credit
import Woeful.Isolation
import Woeful.Ownership
import Woeful.WriteOrder
import Woeful.Conservation
import Woeful.Delivery
import Woeful.Codec
import Woeful.Counter
import Woeful.Sweep
import Woeful.Locks
import Woeful.Finality
import Woeful.ClientClose
import Woeful.Gaps
import Woeful.Datagrams
import Woeful.Capture
import Woeful.Backlog
import Woeful.Hostname
import Woeful.ReadLoop
import Woeful.WriteLoop
import Woeful.Replenish
import Woeful.Connect
import Woeful.Teardown
import Woeful.LetterCase
import Woeful.Conversation
import Woeful.Representable
import Woeful.Messages
import Woeful.PoolOrder
import Woeful.PoolDestructor
import Woeful.PoolRefinement
import Woeful.Shutdown
import Woeful.Quiescence
import Woeful.EndpointRefinement
import Woeful.UploadsOnce
