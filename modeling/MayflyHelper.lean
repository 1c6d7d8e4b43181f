import MayflyHelper.Authority
import MayflyHelper.Blocking
import MayflyHelper.Effective
import MayflyHelper.Instances
import MayflyHelper.Loaded
import MayflyHelper.Metadata
import MayflyHelper.Ownership
import MayflyHelper.PeerPinning
import MayflyHelper.Recovery
import MayflyHelper.Remote
import MayflyHelper.Separators
import MayflyHelper.Shortcut
import MayflyHelper.Tokenisation
import MayflyHelper.Verification
import MayflyHelper.WriteFailures
