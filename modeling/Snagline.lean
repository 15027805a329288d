import Snagline.Edge.Acknowledged
import Snagline.Authority.Fencing
import Snagline.Edge.Transport
import Snagline.Control.Identifiers
import Snagline.Edge.Halting
import Snagline.Delivery.Leases
import Snagline.Edge.Paths
import Snagline.Spool.Retry
import Snagline.Buzz.Replies
import Snagline.Buzz.Budget
import Snagline.Buzz.Confidential
import Snagline.Dispatcher.Replay
import Snagline.Control.Routing
import Snagline.Registry.Graph
import Snagline.Buzz.Agreement
import Snagline.Control.Conflicts
import Snagline.Control.Epochs
import Snagline.Delivery.Sizes
import Snagline.Edge.FrontLeases
import Snagline.Dispatcher.Stale
import Snagline.Delivery.Tokens
