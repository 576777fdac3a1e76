import AmbaVirt.Pool.Ends
import AmbaVirt.Cavalry.Free
import AmbaVirt.Cavalry.Reads
import AmbaVirt.Cavalry.Ports
import AmbaVirt.Gdma.EndToEnd
import AmbaVirt.Iav.Life
import AmbaVirt.Iav.Quota
import AmbaVirt.Iav.Handle
import AmbaVirt.Iav.Conceal
import AmbaVirt.Iav.Inline
import AmbaVirt.Iav.Message
import AmbaVirt.Iav.Compose
import AmbaVirt.Iav.Scale
import AmbaVirt.Jpeg.Decode
import AmbaVirt.Low.Restore
import AmbaVirt.Low.Scrub
import AmbaVirt.Low.Jobs
import AmbaVirt.Low.Torn
import AmbaVirt.Low.Epochs
import AmbaVirt.Lease.Primary
import AmbaVirt.Dma.Replay
import AmbaVirt.Dma.Auth
import AmbaVirt.Dma.Tokens
import AmbaVirt.Server.Submit
import AmbaVirt.Server.Staging
import AmbaVirt.Vsock.Rpc
import AmbaVirt.Guest.Arena
import AmbaVirt.Guest.Poll
import AmbaVirt.Crypto.Hkdf
import AmbaVirt.Cavalry.Drain
import AmbaVirt.Cavalry.Lifetime
import AmbaVirt.Server.Access
import AmbaVirt.Server.Evict
import AmbaVirt.Server.Joint
